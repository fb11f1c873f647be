import Mathlib.Data.List.Nodup
import BoundPage.Table
/-!
# Tables

A table is known by what its names stand for (`get?`): a name is set or erased without touching another one, and an
entry is a name with its value.
-/
namespace BoundPage.Table

variable {α : Type}

theorem find?_setEntry (name m : String) (value : α) : ∀ es : List (String × α),
    ((setEntry name value es).find? fun e => e.1 == m).map Prod.snd =
      if m = name then some value else (es.find? fun e => e.1 == m).map Prod.snd
  | [] => by
    by_cases hm : m = name
    · simp [setEntry, hm]
    · simp [setEntry, hm, Ne.symm hm]
  | e :: es => by
    unfold setEntry
    by_cases he : e.1 = name
    · rw [if_pos he]
      by_cases hm : m = name
      · simp [hm]
      · simp [hm, Ne.symm hm, he]
    · rw [if_neg he]
      by_cases hm : e.1 = m
      · have hne : m ≠ name := fun h => he (hm.trans h)
        simp [hm, hne]
      · simpa [hm] using find?_setEntry name m value es

theorem get?_insert (t : Table α) (name m : String) (value : α) :
    (t.insert name value).get? m = if m = name then some value else t.get? m :=
  find?_setEntry name m value t.entries

theorem get?_insert_self (t : Table α) (name : String) (value : α) : (t.insert name value).get? name = some value := by
  rw [get?_insert, if_pos rfl]

theorem get?_insert_of_ne (t : Table α) {name m : String} (value : α) (h : m ≠ name) :
    (t.insert name value).get? m = t.get? m := by
  rw [get?_insert, if_neg h]

theorem get?_erase (t : Table α) (name m : String) : (t.erase name).get? m = if m = name then none else t.get? m := by
  unfold get? erase
  rw [List.find?_filter]
  by_cases hm : m = name
  · rw [if_pos hm, Option.map_eq_none_iff, List.find?_eq_none]
    intro e _
    simp [hm]
  · rw [if_neg hm]
    congr 2
    funext e
    by_cases he : e.1 = m
    · simp [he, hm]
    · simp [he]

theorem setEntry_setEntry (name : String) (value value' : α) : ∀ es : List (String × α),
    setEntry name value' (setEntry name value es) = setEntry name value' es
  | [] => by simp [setEntry]
  | e :: es => by
    by_cases he : e.1 = name
    · simp [setEntry, he]
    · simp [setEntry, he, setEntry_setEntry name value value' es]

/-- The value that is set last counts. -/
theorem insert_insert (t : Table α) (name : String) (value value' : α) :
    (t.insert name value).insert name value' = t.insert name value' := by
  unfold insert
  simp only [setEntry_setEntry]

/-- **An entry is a name with its value.** -/
theorem get?_eq_some {t : Table α} {name : String} {value : α} :
    t.get? name = some value ↔ (name, value) ∈ t.entries := by
  unfold get?
  rw [Option.map_eq_some_iff]
  constructor
  · rintro ⟨e, he, rfl⟩
    have h1 : e.1 = name := by simpa using List.find?_some he
    rw [← h1]
    exact List.mem_of_find?_eq_some he
  · intro h
    cases hf : t.entries.find? fun e => e.1 == name with
    | none => exact absurd (List.find?_eq_none.1 hf _ h) (by simp)
    | some e =>
      have h1 : e.1 = name := by simpa using List.find?_some hf
      have he := List.mem_of_find?_eq_some hf
      exact ⟨e, rfl, congrArg Prod.snd (List.inj_on_of_nodup_map t.nodup he h h1)⟩

theorem mem_names {t : Table α} {name : String} : name ∈ t.names ↔ ∃ value, (name, value) ∈ t.entries := by
  unfold names
  simp

theorem mem_names_iff_isSome {t : Table α} {name : String} : name ∈ t.names ↔ (t.get? name).isSome := by
  rw [mem_names, Option.isSome_iff_exists]
  exact exists_congr fun _ => get?_eq_some.symm

/-- The entries before and after an entry have other names. -/
theorem exists_append {t : Table α} {e : String × α} (h : e ∈ t.entries) : ∃ pre post, t.entries = pre ++ e :: post ∧
    (∀ e' ∈ pre, e'.1 ≠ e.1) ∧ ∀ e' ∈ post, e'.1 ≠ e.1 := by
  obtain ⟨pre, post, hes⟩ := List.append_of_mem h
  have hnames := t.nodup
  rw [hes, List.map_append, List.map_cons, List.nodup_append, List.nodup_cons] at hnames
  obtain ⟨-, ⟨hpost, -⟩, hpre⟩ := hnames
  exact ⟨pre, post, hes, fun e' he => hpre e'.1 (List.mem_map_of_mem he) e.1 List.mem_cons_self,
    fun e' he h => hpost (h ▸ List.mem_map_of_mem he)⟩

/-- An entry stands at one place only. -/
theorem append_inj {t : Table α} {e : String × α} {pre post pre' post' : List (String × α)}
    (h : t.entries = pre ++ e :: post) (h' : t.entries = pre' ++ e :: post') : pre = pre' ∧ post = post' := by
  have hnodup := List.Nodup.of_map _ t.nodup
  rw [h] at hnodup h'
  have hnot := (List.nodup_cons.1 (List.nodup_middle.1 hnodup)).1
  rw [List.mem_append, not_or] at hnot
  exact ((List.append_cons_inj_of_notMem hnot.1 hnot.2).1 h').imp id And.right

/-- A name has one entry, if any. -/
theorem filter_entries (t : Table α) (name : String) :
    (t.entries.filter fun e => e.1 == name) = ((t.get? name).map fun value => (name, value)).toList := by
  cases h : t.get? name with
  | none =>
    rw [Option.map_none, Option.toList_none, List.filter_eq_nil_iff]
    intro e he hname
    have hget : t.get? e.1 = some e.2 := get?_eq_some.2 he
    rw [beq_iff_eq.1 hname, h] at hget
    cases hget
  | some value =>
    obtain ⟨pre, post, hes, hpre, hpost⟩ := exists_append (get?_eq_some.1 h)
    rw [hes, List.filter_append, List.filter_cons_of_pos (by simp), List.filter_eq_nil_iff.2 (by simpa using hpre),
      List.filter_eq_nil_iff.2 (by simpa using hpost)]
    rfl

/-- An entry is erased where it stands. -/
theorem entries_erase {t : Table α} {e : String × α} {pre post : List (String × α)}
    (h : t.entries = pre ++ e :: post) : (t.erase e.1).entries = pre ++ post := by
  have he : e ∈ t.entries := h ▸ List.mem_append_right _ List.mem_cons_self
  obtain ⟨pre', post', hes, hpre, hpost⟩ := exists_append he
  obtain ⟨rfl, rfl⟩ := append_inj h hes
  show t.entries.filter (fun x => x.1 != e.1) = _
  rw [h, List.filter_append, List.filter_cons_of_neg (by simp),
    List.filter_eq_self.2 fun x hx => bne_iff_ne.2 (hpre x hx),
    List.filter_eq_self.2 fun x hx => bne_iff_ne.2 (hpost x hx)]

theorem names_erase (t : Table α) (name : String) : (t.erase name).names = t.names.filter (· != name) := by
  unfold names erase
  rw [List.filter_map]
  rfl

theorem entries_insertAll : ∀ (es : List (String × α)) (t : Table α),
    (t.entries ++ es).map Prod.fst |>.Nodup → (t.insertAll es).entries = t.entries ++ es
  | [], t, _ => (List.append_nil _).symm
  | e :: es, t, h => by
    have hset : ∀ xs : List (String × α), e.1 ∉ xs.map Prod.fst → setEntry e.1 e.2 xs = xs ++ [e] := fun xs => by
      induction xs with
      | nil => exact fun _ => rfl
      | cons x xs ih =>
        intro hx
        rw [List.map_cons, List.mem_cons, not_or] at hx
        rw [setEntry, if_neg (Ne.symm hx.1), ih hx.2]
        rfl
    have hnot : e.1 ∉ t.entries.map Prod.fst := fun hm => by
      rw [List.map_append, List.nodup_append] at h
      exact h.2.2 _ hm _ List.mem_cons_self rfl
    have hstep : (t.insert e.1 e.2).entries = t.entries ++ [e] := hset _ hnot
    show ((t.insert e.1 e.2).insertAll es).entries = _
    rw [entries_insertAll es _ (by rw [hstep, List.append_assoc]; exact h), hstep, List.append_assoc]
    rfl

theorem entries_ofList {es : List (String × α)} (h : (es.map Prod.fst).Nodup) : (ofList es).entries = es :=
  entries_insertAll es ∅ h

theorem ext {t u : Table α} (h : t.entries = u.entries) : t = u := by
  cases t; cases u
  congr

theorem setEntry_of_mem (name : String) (value : α) : ∀ es : List (String × α), (es.map Prod.fst).Nodup →
    (name, value) ∈ es → setEntry name value es = es
  | e :: es, hnodup, h => by
    rw [List.map_cons, List.nodup_cons] at hnodup
    unfold setEntry
    rcases List.mem_cons.1 h with rfl | h
    · rw [if_pos rfl]
    · have he : e.1 ≠ name := fun he => hnodup.1 (he ▸ List.mem_map_of_mem h)
      rw [if_neg he, setEntry_of_mem name value es hnodup.2 h]

/-- Setting a name to the value that it has changes nothing. -/
theorem insert_of_get? {t : Table α} {name : String} {value : α} (h : t.get? name = some value) :
    t.insert name value = t :=
  ext (setEntry_of_mem name value t.entries t.nodup (get?_eq_some.1 h))

/-- Erasing a name that stands for nothing changes nothing. -/
theorem erase_of_get? {t : Table α} {name : String} (h : t.get? name = none) : t.erase name = t := by
  refine ext (List.filter_eq_self.2 fun e he => bne_iff_ne.2 ?_)
  rintro rfl
  rw [get?_eq_some.2 he] at h
  cases h

theorem map_map {β γ : Type} (f : α → β) (g : β → γ) (t : Table α) : (t.map f).map g = t.map fun a => g (f a) :=
  ext (List.map_map ..)

theorem get?_map {β : Type} (f : α → β) (t : Table α) (name : String) : (t.map f).get? name = (t.get? name).map f := by
  unfold get? map
  rw [List.find?_map]
  show Option.map Prod.snd (Option.map _ (t.entries.find? fun e => e.1 == name)) = _
  cases t.entries.find? fun e => e.1 == name <;> rfl

end BoundPage.Table
