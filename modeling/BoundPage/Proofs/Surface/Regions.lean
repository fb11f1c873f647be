import BoundPage.Proofs.Surface.Items
/-!
# List regions

Old items are destroyed one after the other, and new ones are made one after the other, so what holds of a whole list
is proved item by item (`destroyAll_induction`, `makeItems_induction`).  A rebuilt list leaves a forest unless its
template went with the old items and there was something to make (`forest_makeItems_iff`).
-/
namespace BoundPage

namespace NodeKey

theorem item?_eq_some {k key : NodeKey} {i : Nat} (h : k.item? i = some key) :
    Element.item? k.element i = some key.element ∧ key.instanceId = k.instanceId := by
  obtain ⟨e, he, rfl⟩ := Option.map_eq_some_iff.1 h
  exact ⟨he, rfl⟩

theorem exists_item? {k : NodeKey} (hk : k.isTemplate) (i : Nat) : ∃ key, k.item? i = some key := by
  obtain ⟨e, he⟩ := Element.exists_item? hk i
  exact ⟨{ k with element := e }, by rw [item?, he]; rfl⟩

theorem item?_inj {k key : NodeKey} {i j : Nat} (hi : k.item? i = some key) (hj : k.item? j = some key) : i = j :=
  Element.item?_inj (item?_eq_some hi).1 (item?_eq_some hj).1

theorem item?_text_inj {k key key' : NodeKey} {i j : Nat} (hi : k.item? i = some key) (hj : k.item? j = some key')
    (h : key.text = key'.text) : i = j := by
  obtain ⟨-, hi2⟩ := item?_eq_some hi
  obtain ⟨-, hj2⟩ := item?_eq_some hj
  cases key; cases key'
  simp only at hi2 hj2
  subst hi2 hj2
  obtain rfl := text_inj_of_instance h
  exact item?_inj hi hj

end NodeKey

namespace ListRegion
open RenderTarget

section

variable {S : Type} [RenderTarget S]

/-- **What every removal keeps holds when all old items are gone.** -/
theorem destroyAll_induction {I : S → Prop} : ∀ (keys : List NodeKey) (s : S),
    (∀ t n, ∀ key ∈ keys, I t → locate t key = some n → I (remove t n)) → I s → I (destroyAll s keys).1
  | [], _, _, h => h
  | key :: keys, s, hstep, h => by
    have hrest := fun s' => destroyAll_induction keys s' fun t n k hk => hstep t n k (List.mem_cons_of_mem key hk)
    show I (destroyAll (destroyItem s key).1 keys).1
    unfold destroyItem
    cases hl : locate s key with
    | none => exact hrest s h
    | some n => exact hrest _ (hstep s n key List.mem_cons_self h hl)

theorem makeItems_cons {k key : NodeKey} {i : Nat} (hk : k.item? i = some key) (s : S) (template : Nat)
    (placeholder item : String) (rest : List String) :
    makeItems s template k placeholder i (item :: rest) =
      ((makeItems (makeItem s template key placeholder item) template k placeholder (i + 1) rest).1,
        key :: (makeItems (makeItem s template key placeholder item) template k placeholder (i + 1) rest).2.1,
        (makeItems (makeItem s template key placeholder item) template k placeholder (i + 1) rest).2.2) := by
  rw [makeItems, hk]

/-- **What every new item keeps holds when all of them have been made**; the first one has index `i`. -/
theorem makeItems_induction {I : Nat → S → Prop} {k : NodeKey} (hk : k.isTemplate) (template : Nat)
    (placeholder : String) : ∀ (items : List String) (i : Nat) (s : S),
    (∀ t j item key, items[j]? = some item → k.item? (i + j) = some key → I (i + j) t →
      I (i + j + 1) (makeItem t template key placeholder item)) → I i s →
    I (i + items.length) (makeItems s template k placeholder i items).1
  | [], _, _, _, h => h
  | item :: rest, i, s, hstep, h => by
    obtain ⟨key, hkey⟩ := NodeKey.exists_item? hk i
    have hlen : i + (item :: rest).length = i + 1 + rest.length := by rw [List.length_cons]; omega
    rw [makeItems_cons hkey, hlen]
    refine makeItems_induction hk template placeholder rest (i + 1) _ (fun t j x ky hx hky ht => ?_)
      (hstep s 0 item key rfl hkey h)
    have hj : i + 1 + j = i + (j + 1) := by omega
    rw [hj] at hky ht ⊢
    exact hstep t (j + 1) x ky hx hky ht

theorem keys_makeItems {k : NodeKey} (hk : k.isTemplate) (template : Nat) (placeholder : String) :
    ∀ (items : List String) (i : Nat) (s : S),
      (makeItems s template k placeholder i items).2.1.map some = (List.range' i items.length).map k.item?
  | [], _, _ => rfl
  | item :: rest, i, s => by
    obtain ⟨key, hkey⟩ := NodeKey.exists_item? hk i
    rw [makeItems_cons hkey, List.length_cons, List.range'_succ, List.map_cons, List.map_cons, hkey]
    congr 1
    exact keys_makeItems hk template placeholder rest (i + 1) _

end

/-! ## On a surface -/

variable {s : Surface} {template : Slot} {k : NodeKey} {placeholder : String}

theorem locate_live {s : Surface} {key : NodeKey} {n : Slot} (h : s.locate key = some n) :
    (s.node n).live ∧ (s.node n).id = some key.text := s.find?_eq_some h

theorem linked_destroyAll (hs : s.Linked) (keys : List NodeKey) : (destroyAll s keys).1.Linked :=
  destroyAll_induction keys s (fun _ _ _ _ ht h => ht.remove (locate_live h).1) hs

theorem rooted_destroyAll (hs : s.Rooted) (keys : List NodeKey) : (destroyAll s keys).1.Rooted :=
  destroyAll_induction keys s (fun _ _ _ _ ht h => ht.remove (locate_live h).1) hs

theorem forest_destroyAll (hs : s.Forest) (keys : List NodeKey) : (destroyAll s keys).1.Forest :=
  destroyAll_induction keys s (fun _ _ _ _ ht h => ht.remove (locate_live h).1) hs

theorem linked_makeItem (hs : s.Linked) (key : NodeKey) (item : String) :
    (makeItem s template key placeholder item).Linked := by
  by_cases hl : (s.node template).live
  · exact (Surface.makesItem key placeholder item hs hl).linked
  · obtain ⟨h, ha⟩ := Surface.makeItem_of_dead key placeholder item hs (by simpa using hl)
    exact ha.linked

theorem linked_makeItems (hk : k.isTemplate) (hs : s.Linked) (items : List String) (i : Nat) :
    (makeItems s template k placeholder i items).1.Linked :=
  makeItems_induction (I := fun _ t => t.Linked) hk _ _ items i s
    (fun _ _ item key _ _ ht => linked_makeItem ht key item) hs

theorem rooted_makeItem (hs : s.Rooted) (key : NodeKey) (item : String) :
    (makeItem s template key placeholder item).Rooted := by
  by_cases hl : (s.node template).live
  · exact hs.makeItem key placeholder item hl
  · obtain ⟨h, ha⟩ := Surface.makeItem_of_dead key placeholder item hs.toLinked (by simpa using hl)
    refine hs.of_parents ha.linked (fun j hj => by rwa [ha.live] at hj) fun j hj => ?_
    rw [ha.live] at hj
    rw [ha.node hj]

theorem rooted_makeItems (hk : k.isTemplate) (hs : s.Rooted) (items : List String) (i : Nat) :
    (makeItems s template k placeholder i items).1.Rooted :=
  makeItems_induction (I := fun _ t => t.Rooted) hk _ _ items i s
    (fun _ _ item key _ _ ht => rooted_makeItem ht key item) hs

theorem forest_makeItems (hk : k.isTemplate) (hs : s.Forest) (hl : (s.node template).live) (items : List String)
    (i : Nat) : (makeItems s template k placeholder i items).1.Forest :=
  (makeItems_induction (I := fun _ (t : Surface) => t.Forest ∧ (t.node template).live) hk _ _ items i s
    (fun _ _ item key _ _ ht => ⟨ht.1.makeItem key placeholder item ht.2,
      (Surface.makesItem key placeholder item ht.1.toLinked ht.2).live ht.2⟩) ⟨hs, hl⟩).1

/-- A removed template is not made anew, and what has been copied from it stays among the roots. -/
theorem dead_makeItems (hk : k.isTemplate) (hs : s.Linked) (hd : (s.node template).live = false)
    (items : List String) (i : Nat) :
    ((makeItems s template k placeholder i items).1.node template).live = false ∧
      (items ≠ [] → ∃ r ∈ (makeItems s template k placeholder i items).1.roots,
        ((makeItems s template k placeholder i items).1.node r).live = false) := by
  have h := makeItems_induction (I := fun j (t : Surface) => t.Linked ∧ (t.node template).live = false ∧
      (i < j → ∃ r ∈ t.roots, (t.node r).live = false)) hk template placeholder items i s
    (fun t j item key _ _ ht => by
      obtain ⟨r, ha⟩ := Surface.makeItem_of_dead key placeholder item ht.1 ht.2.1
      refine ⟨ha.linked, by rw [ha.live]; exact ht.2.1, fun _ => ⟨r, ?_, ha.dead⟩⟩
      rw [ha.roots]
      exact List.mem_append_right _ List.mem_cons_self)
    ⟨hs, hd, fun h => absurd h (Nat.lt_irrefl i)⟩
  exact ⟨h.2.1, fun hi => h.2.2 (Nat.lt_add_of_pos_right (List.length_pos_iff.2 hi))⟩

/-- **Making items leaves a forest exactly if the template is there or nothing is made.** -/
theorem forest_makeItems_iff (hk : k.isTemplate) (hs : s.Forest) (items : List String) (i : Nat) :
    (makeItems s template k placeholder i items).1.Forest ↔ items = [] ∨ (s.node template).live := by
  constructor
  · intro h
    by_contra hc
    rw [not_or] at hc
    obtain ⟨r, hr, hd⟩ := (dead_makeItems hk hs.toLinked (by simpa using hc.2) items i).2 hc.1
    rw [h.root_live hr] at hd
    cases hd
  · rintro (rfl | hl)
    · exact hs
    · exact forest_makeItems hk hs hl items i

/-! ## What goes with the old items -/

/-- **A node goes when the nodes of some keys are removed one after the other**: it is below one of them when that one's
turn comes. -/
def Doomed (s : Surface) : List NodeKey → Slot → Prop
  | [], _ => False
  | key :: keys, m =>
    match s.locate key with
    | some n => s.Below n m ∨ Doomed (s.remove n) keys m
    | none => Doomed s keys m

theorem live_destroyAll_iff : ∀ (keys : List NodeKey) {s : Surface} (_ : s.Linked) (m : Slot),
    ((destroyAll s keys).1.node m).live ↔ (s.node m).live ∧ ¬ Doomed s keys m
  | [], s, _, m => by simp [destroyAll, Doomed]
  | key :: keys, s, hs, m => by
    show ((destroyAll (destroyItem s key).1 keys).1.node m).live ↔ _
    unfold destroyItem Doomed
    rw [show RenderTarget.locate s key = s.locate key from rfl]
    cases hl : s.locate key with
    | none => exact live_destroyAll_iff keys hs m
    | some n =>
      have hn := (locate_live hl).1
      have := live_destroyAll_iff keys (hs.remove hn) m
      rw [Surface.live_remove_iff hs hn] at this
      rw [not_or, ← and_assoc]
      exact this

/-- What is left when the old items are gone is as it was, but for lost children. -/
theorem own_destroyAll (keys : List NodeKey) {s : Surface} {m : Slot} (h : ((destroyAll s keys).1.node m).live) :
    (s.node m).live ∧ ((destroyAll s keys).1.node m).own = (s.node m).own ∧
      ((destroyAll s keys).1.node m).parent = (s.node m).parent := by
  refine destroyAll_induction (I := fun t : Surface => (t.node m).live →
    (s.node m).live ∧ (t.node m).own = (s.node m).own ∧ (t.node m).parent = (s.node m).parent) keys s
    (fun t n _ _ ht _ hm => ?_) (fun hm => ⟨hm, rfl, rfl⟩) h
  change ((t.remove n).node m).live at hm
  obtain ⟨h1, h2, h3⟩ := ht (Surface.live_of_live_remove hm)
  exact ⟨h1, (Surface.own_remove hm).trans h2, (Surface.parent_remove hm).trans h3⟩

/-- **The only node with the data-id of a key goes.** -/
theorem doomed_of_unique : ∀ (keys : List NodeKey) {s : Surface} {key : NodeKey} {m : Slot}, s.Linked → key ∈ keys →
    (s.node m).live → (s.node m).id = some key.text →
    (∀ m', (s.node m').live → (s.node m').id = some key.text → m' = m) → Doomed s keys m
  | key' :: keys, s, key, m, hs, hkey, hl, hid, huniq => by
    unfold Doomed
    cases hloc : s.locate key' with
    | none =>
      rcases List.mem_cons.1 hkey with rfl | hkey
      · exact absurd hid (s.find?_eq_none.1 hloc m hl)
      · exact doomed_of_unique keys hs hkey hl hid huniq
    | some n =>
      by_cases hb : s.Below n m
      · exact .inl hb
      · obtain ⟨hnl, hnid⟩ := locate_live hloc
        rcases List.mem_cons.1 hkey with rfl | hkey
        · exact absurd (huniq n hnl hnid ▸ .refl n) hb
        · have hml : ((s.remove n).node m).live := (Surface.live_remove_iff hs hnl m).2 ⟨hl, hb⟩
          have hown : ∀ {j}, ((s.remove n).node j).live → ((s.remove n).node j).id = (s.node j).id := fun hj =>
            Node.id_eq (Surface.own_remove hj)
          have hmid : ((s.remove n).node m).id = some key.text := (hown hml).trans hid
          refine .inr (doomed_of_unique keys (hs.remove hnl) hkey hml hmid fun m' hm' hid' => ?_)
          exact huniq m' (Surface.live_of_live_remove hm') (by rw [← hown hm']; exact hid')

/-! ## Fresh data-ids -/

/-- Making an item keeps what was there, and a new node has the item's data-id or an old one. -/
theorem own_makeItem (hs : s.Linked) {key : NodeKey} {item : String} {m : Slot} :
    ((s.node m).live → ((makeItem s template key placeholder item).node m).live ∧
      ((makeItem s template key placeholder item).node m).own = (s.node m).own) ∧
    (((makeItem s template key placeholder item).node m).live →
      ((makeItem s template key placeholder item).node m).id = some key.text ∨
      ∃ j, (s.node j).live ∧ ((makeItem s template key placeholder item).node m).id = (s.node j).id) := by
  by_cases hl : (s.node template).live
  · have hm := Surface.makesItem key placeholder item hs hl
    refine ⟨fun h => ⟨hm.live h, hm.own h⟩, fun h => ?_⟩
    by_cases htop : m = (s.copy template (s.node template).parent).1
    · rw [htop]; exact .inl hm.id_top
    · obtain ⟨j, hj, -, hid⟩ := hm.own_old h
      exact .inr ⟨j, hj, hid htop⟩
  · obtain ⟨h, ha⟩ := Surface.makeItem_of_dead key placeholder item hs (by simpa using hl)
    refine ⟨fun h => ⟨by rw [ha.live]; exact h, by rw [ha.node h]⟩, fun h => ?_⟩
    rw [ha.live] at h
    exact .inr ⟨m, h, by rw [ha.node h]⟩

theorem id_template_makeItem (hs : s.Linked) {key : NodeKey} {item : String} {id : Option String}
    (h : (s.node template).live → (s.node template).id = id)
    (hl : ((makeItem s template key placeholder item).node template).live) :
    ((makeItem s template key placeholder item).node template).id = id := by
  by_cases hold : (s.node template).live
  · exact (Node.id_eq ((own_makeItem hs).1 hold).2).trans (h hold)
  · obtain ⟨r, ha⟩ := Surface.makeItem_of_dead key placeholder item hs (by simpa using hold)
    rw [ha.live] at hl
    exact absurd hl hold

/-- **Making items keeps what was there**, and a new node has the data-id of an item or an old one. -/
theorem own_makeItems (hk : k.isTemplate) (hs : s.Linked) (template : Slot) (placeholder : String)
    (items : List String) :
    (∀ m, (s.node m).live → ((makeItems s template k placeholder 0 items).1.node m).live ∧
      ((makeItems s template k placeholder 0 items).1.node m).own = (s.node m).own) ∧
    ∀ m, ((makeItems s template k placeholder 0 items).1.node m).live →
      (∃ j < items.length, ∃ key, k.item? j = some key ∧
        ((makeItems s template k placeholder 0 items).1.node m).id = some key.text) ∨
      ∃ j, (s.node j).live ∧ ((makeItems s template k placeholder 0 items).1.node m).id = (s.node j).id := by
  have hloop := makeItems_induction (I := fun i (t : Surface) => t.Linked ∧
      (∀ m, (s.node m).live → (t.node m).live ∧ (t.node m).own = (s.node m).own) ∧
      ∀ m, (t.node m).live → (∃ j < i, ∃ key, k.item? j = some key ∧ (t.node m).id = some key.text) ∨
        ∃ j, (s.node j).live ∧ (t.node m).id = (s.node j).id)
    hk template placeholder items 0 s ?_
    ⟨hs, fun m hm => ⟨hm, rfl⟩, fun m hm => .inr ⟨m, hm, rfl⟩⟩
  · rw [Nat.zero_add] at hloop
    exact hloop.2
  · rintro t i item key' - hkey' ⟨ht, hold, hnew⟩
    rw [Nat.zero_add] at hkey' hnew ⊢
    refine ⟨linked_makeItem ht key' item, fun m hm => ?_, fun m hm => ?_⟩
    · obtain ⟨hl, hown⟩ := hold m hm
      obtain ⟨hl', hown'⟩ := (own_makeItem ht (m := m)).1 hl
      exact ⟨hl', hown'.trans hown⟩
    · rcases (own_makeItem ht (m := m)).2 hm with hid | ⟨j, hj, hid⟩
      · exact .inl ⟨i, Nat.lt_succ_self i, key', hkey', hid⟩
      · rcases hnew j hj with ⟨a, ha, key'', hkey'', hid'⟩ | ⟨a, ha, hid'⟩
        · exact .inl ⟨a, Nat.lt_succ_of_lt ha, key'', hkey'', hid.trans hid'⟩
        · exact .inr ⟨a, ha, hid.trans hid'⟩

/-- **An item finds its data-id free when its turn comes exactly if it was free at the beginning.** -/
theorem locate_makeItems_iff (hk : k.isTemplate) (hs : s.Linked) (items : List String) {key : NodeKey}
    (hkey : k.item? items.length = some key) :
    (makeItems s template k placeholder 0 items).1.locate key = none ↔
      ∀ m, (s.node m).live → (s.node m).id ≠ some key.text := by
  obtain ⟨hold, hnew⟩ := own_makeItems hk hs template placeholder items
  show Surface.find? _ _ = none ↔ _
  rw [Surface.find?_eq_none]
  constructor
  · intro h m hm hid
    obtain ⟨hl, hown⟩ := hold m hm
    exact h m hl ((Node.id_eq hown).trans hid)
  · intro h m hm hid
    rcases hnew m hm with ⟨j, hj, key', hkey', hid'⟩ | ⟨j, hj, hid'⟩
    · rw [hid] at hid'
      have := NodeKey.item?_text_inj hkey hkey' (Option.some.inj hid')
      omega
    · exact h j hj (hid'.symm.trans hid)

end ListRegion
end BoundPage
