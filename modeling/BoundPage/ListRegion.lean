import BoundPage.Json.Reader
import BoundPage.Json.Printer
import BoundPage.Target
import BoundPage.Event
/-!
# List regions

A list is rendered by copying its hidden template once for each item.  Nothing is kept from one list to the next: the
old items are destroyed, and the new ones are made from the template.
-/
namespace BoundPage.ListRegion
open RenderTarget

/-- The text of an item: that of its value, except that `null` is spelled out. -/
def itemText : Json → String
  | .null => "null"
  | v => v.text

/-- The items of a value: those of a JSON list, and otherwise the one item that is the value itself. -/
def items (value : String) : List String :=
  match Json.read? value with
  | some (.arr vs) => vs.map itemText
  | _ => [value]

variable {S : Type} [RenderTarget S]

/-- Makes the item of a key: a copy of the template that is shown and holds the item in the place of the placeholder. -/
def makeItem (s : S) (template : Nat) (key : NodeKey) (placeholder item : String) : S :=
  let (n, s) := cloneNode s template key
  substituteText (setStyle s n "display" none false) n placeholder item

/-- Makes the items of a list from an index on; answers their keys. -/
def makeItems (s : S) (template : Nat) (templateKey : NodeKey) (placeholder : String) (index : Nat) :
    List String → S × List NodeKey × List Event
  | [] => (s, [], [])
  | item :: rest =>
    match templateKey.item? index with
    | none => (s, [], [.notATemplate templateKey])
    | some key =>
      let (s, keys, events) :=
        makeItems (makeItem s template key placeholder item) template templateKey placeholder (index + 1) rest
      (s, key :: keys, events)

/-- Makes the items of a value; answers their keys. -/
def materialize (s : S) (template : Nat) (templateKey : NodeKey) (value placeholder : String) :
    S × List NodeKey × List Event :=
  let (s, keys, events) := makeItems s template templateKey placeholder 0 (items value)
  (s, keys, events ++ [.materialized templateKey keys.length])

/-- Removes the node of a key; answers the key if there is none. -/
def destroyItem (s : S) (key : NodeKey) : S × List NodeKey :=
  match locate s key with
  | some n => (remove s n, [])
  | none => (s, [key])

/-- Removes the nodes of keys, one after the other; answers the keys that had none. -/
def destroyAll (s : S) : List NodeKey → S × List NodeKey
  | [] => (s, [])
  | key :: keys =>
    let (s, gone) := destroyItem s key
    let (s, missing) := destroyAll s keys
    (s, gone ++ missing)

/-- What is said about keys that had no node. -/
def destroyEvents (missing : List NodeKey) : List Event :=
  if missing.isEmpty then [] else [.itemsAlreadyRemoved missing.length]

end BoundPage.ListRegion
