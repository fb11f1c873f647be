import BoundPage.Proofs.Surface.Mounting
import BoundPage.Proofs.Words
/-!
# Substitution

A placeholder is looked for in document order: in the node's own text, then below its children one after the other, and
the search ends at the first text that has it (`replaceWithin`).  The texts before that one are looked at and left
alone, the ones behind it are not looked at any more, so a replacement that holds the placeholder again is not searched
(`substitute_first`).
-/
namespace BoundPage
namespace Surface

/-! ## Document order -/

/-- **The first node comes before the second one in document order**: it is above it, or the two are below children of
the same node of which the first one's stands first. -/
inductive Before (s : Surface) : Slot → Slot → Prop
  | above {a c b : Slot} (hc : s.Child a c) (hb : s.Below c b) : s.Before a b
  | beside {p c d a b : Slot} (hcd : [c, d].Sublist (s.node p).children) (ha : s.Below c a) (hb : s.Below d b) :
      s.Before a b

/-- **A walk visits nodes in document order.** -/
theorem pairwise_walk (s : Surface) : ∀ (d : Nat) (h : Slot), (s.walk d h).Pairwise s.Before
  | 0, _ => .nil
  | d + 1, h => by
    rw [walk_succ, List.pairwise_cons, List.pairwise_flatMap, List.pairwise_iff_forall_sublist]
    refine ⟨?_, ?_, ?_⟩
    · intro k hk
      obtain ⟨c, hc, hk⟩ := List.mem_flatMap.1 hk
      exact .above hc (below_of_mem_walk hk)
    · intro c _
      exact pairwise_walk s d c
    · intro c c' hcc a ha b hb
      exact .beside hcc (below_of_mem_walk ha) (below_of_mem_walk hb)

theorem not_sublist_swap {l : List Slot} (hl : l.Nodup) {c d : Slot} (h : [c, d].Sublist l) : ¬ [d, c].Sublist l := by
  induction l with
  | nil => cases h
  | cons x l ih =>
    obtain ⟨hx, hl⟩ := List.nodup_cons.1 hl
    intro h'
    cases h with
    | cons _ h =>
      cases h' with
      | cons _ h' => exact ih hl h h'
      | cons_cons _ h' => exact hx (h.subset (by simp))
    | cons_cons _ h =>
      cases h' with
      | cons _ h' => exact hx (h'.subset (by simp))
      | cons_cons _ h' => exact hx (List.singleton_sublist.1 h')

namespace Rooted

variable {s : Surface}

/-- Nothing is below two children of a node. -/
theorem child_eq_of_below (hs : s.Rooted) {p c d k : Slot} (hc : s.Child p c) (hd : s.Child p d) (hck : s.Below c k)
    (hdk : s.Below d k) : c = d := by
  obtain ⟨n, hp⟩ := hs.level (hs.child hc).1
  exact (hp.child hs.toLinked hc).eq_of_below hs.toLinked (hp.child hs.toLinked hd) hck hdk

/-- Nothing is below two children of a node, as their order says. -/
theorem not_below_both (hs : s.Rooted) {p c d k : Slot} (hcd : [c, d].Sublist (s.node p).children) (hck : s.Below c k) :
    ¬ s.Below d k := by
  intro hdk
  obtain rfl := hs.child_eq_of_below (hcd.subset (by simp)) (hcd.subset (by simp)) hck hdk
  exact absurd ((hs.nodup_children p).sublist hcd) (by simp)

/-- A node does not come before one that it is below of. -/
theorem not_before_of_below (hs : s.Rooted) {a b : Slot} (h : s.Below a b) : ¬ s.Before b a := by
  intro hba
  cases hba with
  | above hc hb =>
    obtain ⟨n, hn⟩ := hs.level (hs.child hc).1
    exact hn.not_below_of_child hs.toLinked hc (hb.trans h)
  | beside hcd hcb hda => exact hs.not_below_both hcd hcb (hda.trans h)

/-- **Of two nodes only one comes before the other.** -/
theorem before_asymm (hs : s.Rooted) {a b : Slot} (hab : s.Before a b) : ¬ s.Before b a := by
  intro hba
  cases hab with
  | above hc hb => exact hs.not_before_of_below (.head hc hb) hba
  | @beside p c d _ _ hcd hca hdb =>
    cases hba with
    | above hc hb => exact hs.not_before_of_below (.head hc hb) (.beside hcd hca hdb)
    | @beside q c' d' _ _ hcd' hcb' hda' =>
      have hpc : s.Child p c := hcd.subset (by simp)
      have hpd : s.Child p d := hcd.subset (by simp)
      have hqc' : s.Child q c' := hcd'.subset (by simp)
      have hqd' : s.Child q d' := hcd'.subset (by simp)
      by_cases he : c = d'
      · subst he
        obtain rfl := hs.unique_parent hpc hqd'
        obtain rfl := hs.child_eq_of_below hqc' hpd hcb' hdb
        exact not_sublist_swap (hs.nodup_children p) hcd hcd'
      -- Both `c` and `d'` are above `a`, so one of them is above the parent of the other one, and above `b` too.
      · rcases hca.comparable hs.toLinked hda' with hle | hle
        · have hcq : s.Below c q := hs.below_parent hle (Ne.symm he) (hs.child hqd').2.2
          exact hs.not_below_both hcd (hcq.trans (.head hqc' hcb')) hdb
        · have hdp : s.Below d' p := hs.below_parent hle he (hs.child hpc).2.2
          exact hs.not_below_both hcd' hcb' (hdp.trans (.head hpd hdb))

end Rooted

/-! ## The search -/

variable {s : Surface} {placeholder replacement : String}

/-- The node's own text holds the placeholder. -/
def Has (s : Surface) (placeholder : String) (k : Slot) : Prop := placeholder.toList <:+: (s.node k).text.toList

/-- The surface with the first occurrence in the text of one node replaced. -/
def replacedAt? (s : Surface) (placeholder replacement : String) (k : Slot) : Option Surface :=
  (Text.replaceFirst? placeholder replacement (s.node k).text).map fun text => s.modify k fun n => { n with text }

/-- The search for a placeholder, `depth` levels down: in the node's own text first, then below its children in their
order.  Answers the surface and whether the placeholder was found; once it has been, nothing more is searched. -/
def replaceWithin (placeholder replacement : String) : Nat → Surface → Slot → Surface × Bool
  | 0, s, _ => (s, false)
  | depth + 1, s, h =>
    match Text.replaceFirst? placeholder replacement (s.node h).text with
    | some text => (s.modify h fun n => { n with text }, true)
    | none => (s.node h).children.foldl
        (fun r c => if r.2 then r else replaceWithin placeholder replacement depth r.1 c) (s, false)

/-- What a search answers. -/
def searched (s : Surface) : Option Surface → Surface × Bool
  | some t => (t, true)
  | none => (s, false)

theorem replacedAt?_eq_none_iff {k : Slot} : s.replacedAt? placeholder replacement k = none ↔ ¬ s.Has placeholder k := by
  unfold replacedAt? Text.replaceFirst? Has
  rw [Option.map_eq_none_iff, Option.map_eq_none_iff, Text.breakOn?_eq_none_iff]

theorem replacedAt?_eq_some {k : Slot} {t : Surface} (h : s.replacedAt? placeholder replacement k = some t) :
    ∃ before after, Text.FirstBetween placeholder.toList (s.node k).text.toList before after ∧
      t = s.modify k fun n => { n with text := String.ofList (before ++ replacement.toList ++ after) } := by
  obtain ⟨text, htext, rfl⟩ := Option.map_eq_some_iff.1 h
  obtain ⟨⟨before, after⟩, hparts, rfl⟩ := Option.map_eq_some_iff.1 htext
  exact ⟨before, after, Text.firstBetween_of_breakOn? hparts, rfl⟩

theorem substitute_eq_searched (s : Surface) (h : Slot) (placeholder replacement : String) :
    s.substitute h placeholder replacement =
      (s.searched ((s.subtree h).findSome? (s.replacedAt? placeholder replacement))).1 := by
  show ((s.subtree h).findSome? (s.replacedAt? placeholder replacement)).getD s = _
  cases (s.subtree h).findSome? (s.replacedAt? placeholder replacement) <;> rfl

theorem foldl_found (search : Surface → Slot → Surface × Bool) (t : Surface) : ∀ cs : List Slot,
    cs.foldl (fun r c => if r.2 then r else search r.1 c) (t, true) = (t, true)
  | [] => rfl
  | _ :: cs => foldl_found search t cs

/-- A search below one child after the other is a search in all that they walk to, as long as nothing has changed. -/
theorem foldl_searched {search : Surface → Slot → Surface × Bool} {walk : Slot → List Slot}
    {replaced? : Slot → Option Surface} : ∀ {cs : List Slot},
    (∀ c ∈ cs, search s c = s.searched ((walk c).findSome? replaced?)) →
    cs.foldl (fun r c => if r.2 then r else search r.1 c) (s, false) =
      s.searched ((cs.flatMap walk).findSome? replaced?)
  | [], _ => rfl
  | c :: cs, hall => by
    obtain ⟨hc, hcs⟩ := List.forall_mem_cons.1 hall
    rw [List.foldl_cons, List.flatMap_cons, List.findSome?_append]
    simp only [Bool.false_eq_true, if_false, hc]
    cases (walk c).findSome? replaced? with
    | some t => exact foldl_found search t cs
    | none => exact foldl_searched hcs

/-- **The search finds what the walk finds first.** -/
theorem replaceWithin_eq (s : Surface) (placeholder replacement : String) : ∀ (d : Nat) (h : Slot),
    s.replaceWithin placeholder replacement d h =
      s.searched ((s.walk d h).findSome? (s.replacedAt? placeholder replacement))
  | 0, _ => rfl
  | d + 1, h => by
    rw [walk_succ, List.findSome?_cons, replaceWithin]
    unfold replacedAt?
    cases Text.replaceFirst? placeholder replacement (s.node h).text with
    | some text => rfl
    | none => exact foldl_searched fun c _ => replaceWithin_eq s placeholder replacement d c

/-! ## The first node that has it -/

/-- **The first node from a node down that has the placeholder**, in document order. -/
structure FirstWith (s : Surface) (placeholder : String) (h k : Slot) : Prop where
  below : s.Below h k
  has : s.Has placeholder k
  before : ∀ j, s.Below h j → s.Has placeholder j → j ≠ k → s.Before k j ∧ ¬ s.Before j k

theorem FirstWith.unique {h k k' : Slot} (hk : s.FirstWith placeholder h k) (hk' : s.FirstWith placeholder h k') :
    k = k' := by
  by_contra hne
  exact (hk'.before k hk.below hk.has hne).2 (hk.before k' hk'.below hk'.has (Ne.symm hne)).1

/-- No text is in a slot that is not there. -/
theorem Has.lt_size {k : Slot} (hk : s.Has placeholder k) (hp : placeholder ≠ "") : k < s.size := by
  by_contra hlt
  unfold Has at hk
  rw [node_of_size_le s (Nat.le_of_not_lt hlt)] at hk
  exact hp (String.ext_iff.2 (List.infix_nil.1 hk))

/-- A walk that is deep enough comes to every node with the placeholder that is below its top. -/
theorem Rooted.mem_walk_of_has (hs : s.Rooted) (hp : placeholder ≠ "") {h k : Slot} (hk : s.Has placeholder k) {d : Nat}
    (hd : s.size ≤ d) : k ∈ s.walk d h ↔ s.Below h k := by
  have hpos : 0 < s.size := Nat.lt_of_le_of_lt (Nat.zero_le k) (hk.lt_size hp)
  cases hl : (s.node h).live with
  | true => rw [hs.walk_eq hl hd, hs.mem_subtree hl]
  | false => exact Shallow.mem_walk d (show s.Shallow 0 h from hs.dead_children hl) (by omega)

/-- **What is found on a walk that is deep enough**: nothing if no node has the placeholder, and otherwise the first one
that has it. -/
theorem Rooted.findSome?_walk (hs : s.Rooted) (hp : placeholder ≠ "") (replacement : String) (h : Slot) {d : Nat}
    (hd : s.size ≤ d) :
    (∀ k, s.Below h k → ¬ s.Has placeholder k) ∧
        (s.walk d h).findSome? (s.replacedAt? placeholder replacement) = none ∨
      ∃ k, s.FirstWith placeholder h k ∧ ∃ t, s.replacedAt? placeholder replacement k = some t ∧
        (s.walk d h).findSome? (s.replacedAt? placeholder replacement) = some t := by
  cases hfind : (s.walk d h).findSome? (s.replacedAt? placeholder replacement) with
  | none =>
    refine .inl ⟨fun k hb hk => ?_, rfl⟩
    have hmem := (hs.mem_walk_of_has hp hk hd).2 hb
    exact replacedAt?_eq_none_iff.1 (List.findSome?_eq_none_iff.1 hfind k hmem) hk
  | some t =>
    obtain ⟨pre, k, post, hwalk, hk, hpre⟩ := List.findSome?_eq_some_iff.1 hfind
    have hhas : s.Has placeholder k := by
      by_contra hnot
      rw [replacedAt?_eq_none_iff.2 hnot] at hk
      cases hk
    have hbelow : s.Below h k := (hs.mem_walk_of_has hp hhas hd).1 (by rw [hwalk]; simp)
    refine .inr ⟨k, ⟨hbelow, hhas, fun j hb hj hne => ?_⟩, t, hk, rfl⟩
    have hmem := (hs.mem_walk_of_has hp hj hd).2 hb
    rw [hwalk, List.mem_append, List.mem_cons] at hmem
    rcases hmem with hmem | rfl | hmem
    · exact absurd hj (replacedAt?_eq_none_iff.1 (hpre j hmem))
    · exact absurd rfl hne
    · have horder := s.pairwise_walk d h
      rw [hwalk, List.pairwise_append, List.pairwise_cons] at horder
      have hkj := horder.2.1.1 j hmem
      exact ⟨hkj, hs.before_asymm hkj⟩

/-- A search that may go deeper finds nothing else. -/
theorem Rooted.findSome?_walk_eq (hs : s.Rooted) (hp : placeholder ≠ "") (replacement : String) (h : Slot) {d : Nat}
    (hd : s.size ≤ d) : (s.walk d h).findSome? (s.replacedAt? placeholder replacement) =
      (s.subtree h).findSome? (s.replacedAt? placeholder replacement) := by
  rcases hs.findSome?_walk hp replacement h hd with ⟨hnone, hfind⟩ | ⟨k, hk, t, ht, hfind⟩ <;>
    rcases hs.findSome?_walk hp replacement h (Nat.le_refl s.size) with ⟨hnone', hfind'⟩ | ⟨k', hk', t', ht', hfind'⟩
  · exact hfind.trans hfind'.symm
  · exact absurd hk'.has (hnone k' hk'.below)
  · exact absurd hk.has (hnone' k hk.below)
  · obtain rfl := hk.unique hk'
    exact (hfind.trans ht.symm).trans (ht'.trans hfind'.symm)

/-- **Substitution replaces one occurrence**, whatever the replacement holds.  Either no node from the given one down has
the placeholder, and nothing changes; or the first of them that has it gets the text in which the first occurrence is
replaced, and all other nodes, all else of this one and all links stay.  The search that looks into the node's own text
and then below its children one after the other, until it has found the placeholder, does the same, however deep it may
go. -/
theorem substitute_first (hs : s.Forest) (h : Slot) (hp : placeholder ≠ "") (replacement : String) :
    (∀ depth, s.size ≤ depth → ∃ found,
      s.replaceWithin placeholder replacement depth h = (s.substitute h placeholder replacement, found) ∧
        (found = true ↔ ∃ k, s.Below h k ∧ s.Has placeholder k)) ∧
    ((∀ k, s.Below h k → ¬ s.Has placeholder k) ∧ s.substitute h placeholder replacement = s ∨
      ∃ k before after, s.FirstWith placeholder h k ∧
        Text.FirstBetween placeholder.toList (s.node k).text.toList before after ∧
        (s.substitute h placeholder replacement).roots = s.roots ∧
        (s.substitute h placeholder replacement).free = s.free ∧
        (s.substitute h placeholder replacement).size = s.size ∧
        ∀ j, (s.substitute h placeholder replacement).node j =
          if j = k then { s.node k with text := String.ofList (before ++ replacement.toList ++ after) } else s.node j) := by
  have hdeep : ∀ depth, s.size ≤ depth → s.replaceWithin placeholder replacement depth h =
      s.searched ((s.subtree h).findSome? (s.replacedAt? placeholder replacement)) := by
    intro depth hd
    rw [replaceWithin_eq, hs.findSome?_walk_eq hp replacement h hd]
  rw [substitute_eq_searched]
  unfold subtree at hdeep ⊢
  rcases hs.findSome?_walk hp replacement h (Nat.le_refl s.size) with ⟨hnone, hfind⟩ | ⟨k, hk, t, ht, hfind⟩
  · rw [hfind] at hdeep ⊢
    refine ⟨fun depth hd => ⟨false, hdeep depth hd, nofun, ?_⟩, .inl ⟨hnone, rfl⟩⟩
    rintro ⟨k, hb, hk⟩
    exact absurd hk (hnone k hb)
  · rw [hfind] at hdeep ⊢
    obtain ⟨before, after, hparts, rfl⟩ := replacedAt?_eq_some ht
    refine ⟨fun depth hd => ⟨true, hdeep depth hd, fun _ => ⟨k, hk.below, hk.has⟩, fun _ => rfl⟩, .inr ?_⟩
    refine ⟨k, before, after, hk, hparts, rfl, rfl, size_modify s k _, fun j => ?_⟩
    show (s.modify k _).node j = _
    rw [node_modify]
    by_cases hj : j = k
    · subst hj
      rw [if_pos ⟨rfl, hk.has.lt_size hp⟩, if_pos rfl]
    · rw [if_neg fun hc => hj hc.1, if_neg hj]

/-- A list with the placeholder twice in a text below its first item, and once in its second one. -/
def doubled : Surface := .ofMarkup [{
  tag := "ul"
  text := "$"
  children := [{ tag := "li", children := [{ tag := "b", text := "$x or $x" }] }, { tag := "li", text := "$x" }] }]

/-- The first text that has it is below the first item; the replacement is not searched. -/
theorem substitute_first_doubled : doubled.Forest ∧ "$x" ≠ "" ∧ doubled.FirstWith "$x" 0 2 ∧
    ((doubled.substitute 0 "$x" "[$x]").node 2).text = "[$x] or $x" ∧
    (doubled.substitute 0 "$x" "[$x]").node 3 = doubled.node 3 := by
  have hs : doubled.Forest := forest_ofMarkup _
  have hp : "$x" ≠ "" := by decide
  have htext : ((doubled.substitute 0 "$x" "[$x]").node 2).text = "[$x] or $x" := by decide +kernel
  have hold : (doubled.node 2).text = "$x or $x" := by decide +kernel
  rcases (substitute_first hs 0 hp "[$x]").2 with ⟨-, hsame⟩ | ⟨k, before, after, hk, -, -, -, -, hnodes⟩
  · rw [hsame, hold] at htext
    exact absurd htext (by decide)
  · obtain rfl : k = 2 := by
      by_contra hne
      rw [hnodes 2, if_neg (Ne.symm hne), hold] at htext
      exact absurd htext (by decide)
    exact ⟨hs, hp, hk, htext, by rw [hnodes 3, if_neg (by decide)]⟩

end Surface
end BoundPage
