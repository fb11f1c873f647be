import BoundPage.Proofs.Surface.Absence
import BoundPage.Proofs.Write.Missing
import BoundPage.Proofs.Write.Rekey
/-!
# Missing entries are inert

An entry whose node is missing when the pass begins is reported and does nothing else: the pass goes as it would without
the entry (`IsMissing.run`).  Two runs are compared step by step (`Alike`), the one with the entry and the one without it.
-/
namespace BoundPage
open RenderTarget

namespace Pass

/-! ## Two runs -/

section

variable {S : Type}

/-- **Two runs have got to the same**, but for an entry of the table and what has been missing. -/
structure Alike (element : String) (st st' : State S) : Prop where
  surface : st'.surface = st.surface
  table : st'.table = st.table.erase element
  edited : st'.edited = st.edited
  destroyed : st'.destroyed = st.destroyed
  detached : st'.detached = st.detached
  materialized : st'.materialized = st.materialized

/-- A dependency fails in both runs, or is carried out in both and misses no node. -/
inductive EndAlike (element : String) (st st' : State S) :
    Except SurfaceError (State S) → Except SurfaceError (State S) → Prop
  | ok {u u' : State S} (alike : Alike element u u') (missing : u.missing = st.missing)
    (missing' : u'.missing = st'.missing) : EndAlike element st st' (.ok u) (.ok u')
  | error (err : SurfaceError) : EndAlike element st st' (.error err) (.error err)

variable {element : String} {st st' : State S}

/-- Two runs that got to the same have gone on alike: they are where they are the same again, and have missed the same
nodes meanwhile. -/
structure GoAlike (element : String) (reports : NodeKey → Prop) (st st' u u' : State S) : Prop where
  alike : Alike element u u'
  missing : ∃ keys, u.missing = st.missing ++ keys ∧ u'.missing = st'.missing ++ keys ∧ ∀ m ∈ keys, reports m

theorem GoAlike.refl (h : Alike element st st') (reports : NodeKey → Prop) :
    GoAlike element reports st st' st st' :=
  ⟨h, [], (List.append_nil _).symm, (List.append_nil _).symm, fun _ h => absurd h List.not_mem_nil⟩

theorem GoAlike.trans {reports : NodeKey → Prop} {u u' v v' : State S} (h : GoAlike element reports st st' u u')
    (h' : GoAlike element reports u u' v v') : GoAlike element reports st st' v v' := by
  obtain ⟨keys, hu, hu', hkeys⟩ := h.missing
  obtain ⟨more, hv, hv', hmore⟩ := h'.missing
  refine ⟨h'.alike, keys ++ more, ?_, ?_, fun m hm => (List.mem_append.1 hm).elim (hkeys m) (hmore m)⟩
  · rw [hv, hu, List.append_assoc]
  · rw [hv', hu', List.append_assoc]

theorem GoAlike.mono {reports reports' : NodeKey → Prop} {u u' : State S} (h : GoAlike element reports st st' u u')
    (himp : ∀ m, reports m → reports' m) : GoAlike element reports' st st' u u' :=
  ⟨h.alike, h.missing.imp fun _ hk => ⟨hk.1, hk.2.1, fun m hm => himp m (hk.2.2 m hm)⟩⟩

end

/-! ## The pass without an entry -/

section

variable {S : Type}

def without (p : Pass S) (element : String) : Pass S := { p with dependents := p.dependents.erase element }

theorem owned_without {element : String} (ht : Element.isTemplate element = false) (p : Pass S) (x : String) :
    (p.without element).ownedByTemplate x = p.ownedByTemplate x := by
  unfold ownedByTemplate
  rw [Bool.eq_iff_iff, List.any_eq_true, List.any_eq_true]
  refine exists_congr fun t => and_congr_left fun hitem => ?_
  have hne : t ≠ element := fun h => by
    rw [← h, Element.isTemplate_of_isItemOf hitem] at ht
    cases ht
  unfold without Table.names Table.erase
  simp only [List.mem_map, List.mem_filter, bne_iff_ne]
  exact exists_congr fun e => and_congr_left fun he => and_iff_left (he ▸ hne)

/-- An entry that is no item is not among the old items of a list. -/
theorem stale_erase {element : String} (hitem : Element.isItem element = false) (table : DependencyTable) (t : String) :
    (table.erase element).names.filter (fun x => Element.isItemOf x t) =
      table.names.filter fun x => Element.isItemOf x t := by
  rw [Table.names_erase, List.filter_filter]
  refine List.filter_congr fun x _ => ?_
  by_cases hx : Element.isItemOf x t
  · have hne := Element.ne_of_isItemOf hx hitem
    simp [hne]
  · simp [hx]

variable [RenderTarget S]

/-- Rebuilding a list leaves an entry that is no item and not its template alone. -/
theorem rekey_erase {element t : String} {created : List String} (hitem : Element.isItem element = false)
    (hne : element ≠ t) (hc : ∀ c ∈ created, Element.isItemOf c t) (hn : created.Nodup) (table : DependencyTable)
    (ds : List Dependency) : (rekey table t created ds).erase element = rekey (table.erase element) t created ds := by
  have hentry : ∀ e : String × List Dependency, (rekeyed t created ds e).filter (fun x => x.1 != element) =
      if e.1 != element then rekeyed t created ds e else [] := by
    intro e
    split
    · next he =>
      refine List.filter_eq_self.2 fun x hx => bne_iff_ne.2 ?_
      rcases (mem_rekeyed.1 hx).2 with rfl | ⟨-, c, hcc, rfl⟩
      · exact bne_iff_ne.1 he
      · exact Element.ne_of_isItemOf (hc c hcc) hitem
    · next he =>
      have hel : e.1 = element := by simpa using he
      have hnot := Element.isItemOf_eq_false hitem t
      unfold rekeyed
      simp [hel, hnot, hne]
  have hall : ∀ es : List (String × List Dependency),
      (es.flatMap (rekeyed t created ds)).filter (fun x => x.1 != element) =
        (es.filter fun x => x.1 != element).flatMap (rekeyed t created ds) := by
    intro es
    induction es with
    | nil => rfl
    | cons e es ih =>
      rw [List.flatMap_cons, List.filter_append, ih, hentry, List.filter_cons]
      split
      · rfl
      · rfl
  refine Table.ext ?_
  rw [entries_rekey _ ds hc hn]
  exact (congrArg _ (entries_rekey _ ds hc hn)).trans (hall table.entries)

variable {p : Pass S} {element : String} {st st' : State S} {k : NodeKey}

theorem Alike.showText (h : Alike element st st') :
    EndAlike element st st' (p.showText k st) ((p.without element).showText k st') := by
  unfold Pass.showText
  rw [h.surface]
  cases require st.surface k with
  | error err => exact .error err
  | ok n => exact .ok ⟨rfl, h.table, h.edited, h.destroyed, h.detached, h.materialized⟩ rfl rfl

theorem Alike.setVisible (h : Alike element st st') (visible : Bool) :
    EndAlike element st st' (setVisible k visible st) (setVisible k visible st') := by
  unfold Pass.setVisible
  rw [h.surface]
  cases require st.surface k with
  | error err => exact .error err
  | ok n => exact .ok ⟨rfl, h.table, h.edited, h.destroyed, h.detached, h.materialized⟩ rfl rfl

theorem Alike.styleParameters (n : Nat) (matched : Bool) : ∀ (entries : List (String × StyleParameter))
    {st st' : State S}, Alike element st st' →
    Alike element (entries.foldl (p.styleParameter k.element n matched) st)
      (entries.foldl ((p.without element).styleParameter k.element n matched) st')
  | [], _, _, h => h
  | x :: entries, st, st', h => by
    refine Alike.styleParameters n matched entries ?_
    unfold styleParameter
    rw [h.edited, h.surface]
    split
    · exact ⟨rfl, h.table, rfl, h.destroyed, h.detached, h.materialized⟩
    · split
      · exact h
      · exact ⟨rfl, h.table, rfl, h.destroyed, h.detached, h.materialized⟩

theorem Alike.applyStyle (h : Alike element st st') (matched : Bool) (parameters : Table StyleParameter) :
    EndAlike element st st' (p.applyStyle k matched parameters st)
      ((p.without element).applyStyle k matched parameters st') := by
  unfold Pass.applyStyle
  rw [h.surface]
  cases require st.surface k with
  | error err => exact .error err
  | ok n =>
    have hstyled := h.styleParameters (p := p) (k := k) n matched parameters.entries
    exact .ok ⟨hstyled.surface, hstyled.table, hstyled.edited, hstyled.destroyed, hstyled.detached,
      hstyled.materialized⟩ (missing_styleParameters ..) (missing_styleParameters ..)

/-- Both passes fill a list in the same way. -/
theorem refilled_without (hitem : Element.isItem element = false) (p : Pass S) (k : NodeKey) (table : DependencyTable)
    (s : S) (template : Nat) (items : List String) :
    (p.without element).refilled k (table.erase element) s template items = p.refilled k table s template items := by
  have hcleared : (p.without element).cleared k (table.erase element) s = p.cleared k table s := by
    unfold cleared staleKeys
    rw [stale_erase hitem]
    rfl
  unfold refilled
  rw [hcleared]
  rfl

theorem Alike.rebuildList (h : Alike element st st') (hitem : Element.isItem element = false)
    (htemplate : Element.isTemplate element = false) (hk : k.isTemplate) (ds : List Dependency) :
    EndAlike element st st' (p.rebuildList k ds st) ((p.without element).rebuildList k ds st') := by
  have hne : element ≠ k.element := by
    rintro rfl
    cases htemplate.symm.trans hk
  have hfails : ∀ err, (∀ (p : Pass S) (st : State S), st.surface = st'.surface → p.rebuildList k ds st = .error err) →
      EndAlike element st st' (p.rebuildList k ds st) ((p.without element).rebuildList k ds st') := fun err he => by
    rw [he p st h.surface.symm, he _ st' rfl]
    exact .error err
  cases hl : locate st.surface k with
  | none =>
    refine hfails (.nodeNotFound k) fun p u hu => ?_
    unfold Pass.rebuildList
    rw [require_eq, hu, h.surface, hl]
    rfl
  | some n =>
    cases hp : parent st.surface n with
    | none =>
      refine hfails (.detached k) fun p u hu => ?_
      unfold Pass.rebuildList
      rw [require_eq, hu, h.surface, hl]
      simp only [bind, Except.bind, hp]
      rfl
    | some above =>
      have hl' : locate st'.surface k = some n := by rw [h.surface, hl]
      have hattached : (parent st.surface n).isSome := by rw [hp]; rfl
      have hattached' : (parent st'.surface n).isSome := by rw [h.surface, hp]; rfl
      obtain ⟨events, hok⟩ := rebuildList_eq_ok (p := p) hl hattached ds
      obtain ⟨events', hok'⟩ := rebuildList_eq_ok (p := p.without element) hl' hattached' ds
      have hcreated : ∀ c ∈ p.created k st.table st.surface n, Element.isItemOf c k.element := fun c hc =>
        isItemOf_of_mem_created hk hc
      have hrekey := rekey_erase hitem hne hcreated (nodup_created hk) st.table ds
      rw [hok, hok', h.surface, h.table, h.destroyed, h.materialized, stale_erase hitem]
      have hrefilled := refilled_without hitem p k st.table st.surface n (ListRegion.items p.value)
      change (p.without element).refilled k (st.table.erase element) st.surface n
        (ListRegion.items (p.without element).value) = _ at hrefilled
      rw [hrefilled]
      exact .ok ⟨rfl, hrekey.symm, h.edited, rfl, h.detached, rfl⟩ rfl rfl

/-- **Both runs carry out a dependency alike.** -/
theorem Alike.applyOne (h : Alike element st st') (hitem : Element.isItem element = false)
    (htemplate : Element.isTemplate element = false) (k : NodeKey) (ds : List Dependency) (d : Dependency) :
    EndAlike element st st' (p.applyOne k ds d st) ((p.without element).applyOne k ds d st') := by
  unfold Pass.applyOne
  cases d with
  | value =>
    simp only [owned_without htemplate]
    split
    · exact .ok ⟨h.surface, h.table, h.edited, h.destroyed, h.detached, h.materialized⟩ rfl rfl
    · split
      · next hk => exact h.rebuildList hitem htemplate hk ds
      · exact h.showText
  | visible condition => exact h.setVisible _
  | style condition parameters => exact h.applyStyle _ _

variable (hitem : Element.isItem element = false) (htemplate : Element.isTemplate element = false)
include hitem htemplate

/-- **Both runs carry out the dependencies of a node alike.** -/
theorem Alike.applyEach (ds : List Dependency) : ∀ (left : List Dependency) {st st' : State S}, Alike element st st' →
    GoAlike element (· = k) st st' (p.applyEach k ds left st) ((p.without element).applyEach k ds left st')
  | [], _, _, h => .refl h _
  | d :: left, st, st', h => by
    have hone := h.applyOne (p := p) hitem htemplate k ds d
    have hmissing : ∀ m, p.applyOne k ds d st = .error (.nodeNotFound m) → m = k := fun _ => key_of_nodeNotFound
    rw [Pass.applyEach, Pass.applyEach]
    generalize p.applyOne k ds d st = r at hone hmissing ⊢
    generalize (p.without element).applyOne k ds d st' = r' at hone ⊢
    cases hone with
    | ok hu hm hm' =>
      have hstep : GoAlike element (· = k) st st' _ _ :=
        ⟨hu, [], by rw [hm, List.append_nil], by rw [hm', List.append_nil], fun _ h => absurd h List.not_mem_nil⟩
      exact hstep.trans (hu.applyEach ds left)
    | error err =>
      cases err with
      | nodeNotFound m =>
        refine ⟨⟨h.surface, h.table, h.edited, h.destroyed, h.detached, h.materialized⟩, [m], rfl, rfl, ?_⟩
        exact fun m' hm' => (List.mem_singleton.1 hm').trans (hmissing m rfl)
      | detached template =>
        have hdetached : Alike element
            ({ st with detached := st.detached ++ [template] }.say (.detachedTemplate template))
            ({ st' with detached := st'.detached ++ [template] }.say (.detachedTemplate template)) :=
          ⟨h.surface, h.table, h.edited, h.destroyed, congrArg (· ++ [template]) h.detached, h.materialized⟩
        obtain ⟨halike, keys, hm, hm', hkeys⟩ := hdetached.applyEach ds left
        exact ⟨halike, keys, hm, hm', hkeys⟩

/-- **Both runs go through entries alike.** -/
theorem Alike.foldl : ∀ (es : List (String × List Dependency)) {st st' : State S}, Alike element st st' →
    GoAlike element (fun m => ∃ e ∈ es, m = p.key e.1) st st' (es.foldl p.entry st)
      (es.foldl (p.without element).entry st')
  | [], _, _, h => .refl h _
  | e :: es, st, st', h => by
    have hentry : GoAlike element (· = p.key e.1) st st' (p.entry st e) ((p.without element).entry st' e) := by
      rw [entry_eq, entry_eq, h.destroyed]
      split
      · exact .refl h _
      · exact h.applyEach hitem htemplate e.2 e.2
    exact (hentry.mono fun m hm => ⟨e, List.mem_cons_self, hm⟩).trans
      ((hentry.alike.foldl es).mono fun m ⟨e', he', hm⟩ => ⟨e', List.mem_cons_of_mem e he', hm⟩)

end

/-! ## A missing entry -/

/-- An entry whose node is missing is reported. -/
theorem entry_of_missing {S : Type} [RenderTarget S] {p : Pass S} {st : State S} {e : String × List Dependency}
    (hitem : Element.isItem e.1 = false) (hd : st.destroyed.contains e.1 = false) (hds : e.2 ≠ [])
    (hl : locate st.surface (p.key e.1) = none) :
    p.entry st e = { st with missing := st.missing ++ [p.key e.1] }.say (.missingNode (p.key e.1)) := by
  obtain ⟨d, left, hdl⟩ := List.exists_cons_of_ne_nil hds
  have howned : p.ownedByTemplate e.1 = false := not_owned_of_not_item hitem
  have hfails := applyOne_of_missing (k := p.key e.1) (d := d) (fun _ => howned) hl e.2
  rw [entry_eq, hd, hdl, applyEach, ← hdl, hfails]
  rfl

variable {p : Pass Surface} {k key : NodeKey} {ds : List Dependency} {st : State Surface} {d : Dependency}
  {t : Surface} {table : DependencyTable} {destroyed : List String} {e : String × List Dependency}

/-- **Style parameters bring no node with a key**, whatever the page is. -/
def BringsNone (effector : StyleEffector Surface) (key : NodeKey) : Prop :=
  ∀ s n parameter value important, locate s key = none → locate (effector s n parameter value important) key = none

theorem bringsNone_inlineStyles (key : NodeKey) : BringsNone inlineStyles key := fun s n parameter value important h =>
  Surface.lacks_iff.1 ((Surface.lacks_iff.2 h).alikeBut (restyled_parameter s n parameter value important).toAlikeBut)

theorem lacks_parameters (he : BringsNone p.effector key) (element : String) (n : Nat) (matched : Bool) :
    ∀ (entries : List (String × StyleParameter)) (st : State Surface), st.surface.Lacks key.text →
      (entries.foldl (p.styleParameter element n matched) st).surface.Lacks key.text
  | [], _, h => h
  | x :: entries, st, h => by
    have heffector : ∀ value important, (p.effector st.surface n x.1 value important).Lacks key.text :=
      fun value important => Surface.lacks_iff.2 (he _ n x.1 value important (Surface.lacks_iff.1 h))
    refine lacks_parameters he element n matched entries _ ?_
    unfold styleParameter
    split
    · exact heffector _ _
    · split
      · exact h
      · show (p.resetParameter st.surface n x.1 x.2).Lacks key.text
        unfold resetParameter
        split
        · exact heffector _ _
        · split
          · exact h.alikeBut (Surface.restyled_setStyle st.surface n x.1 (some zeroWidth) false).toAlikeBut
          · exact heffector _ _

/-- **No dependency brings a node with the key of an element that is no item.** -/
theorem Change.lacks (he : BringsNone p.effector (p.key e.1)) (hitem : Element.isItem e.1 = false)
    (hid : k.instanceId = p.instanceId) (hs : st.surface.Lacks (p.key e.1).text)
    (h : p.Change k ds st d t table destroyed) : t.Lacks (p.key e.1).text := by
  cases h with
  | owned _ => exact hs
  | text _ _ _ => exact hs.setText _ _
  | list hr =>
    refine (hs.destroyAll _).makeItems hr.isTemplate (fun i key hkey => ?_) _ _ _ _
    obtain ⟨helement, hinstance⟩ := NodeKey.item?_eq_some hkey
    exact NodeKey.text_ne_of_item (Element.isItem_of_isItemOf (Element.isItemOf_item? helement)) (hinstance.trans hid)
      hitem
  | visible _ => exact hs.alikeBut (restyled_visible _ _ _).toAlikeBut
  | style _ => exact lacks_parameters he _ _ _ _ _ hs

/-- **An entry has something to do, and its node is missing** when the pass begins.  It is neither a template nor an
item. -/
structure IsMissing (p : Pass Surface) (s : Surface) (e : String × List Dependency) : Prop where
  mem : e ∈ p.dependents.entries
  notItem : Element.isItem e.1 = false
  notTemplate : Element.isTemplate e.1 = false
  nonempty : e.2 ≠ []
  missing : locate s (p.key e.1) = none

/-- **A missing entry does nothing but be reported**, once and at its place. -/
theorem IsMissing.run {s : Surface} (h : p.IsMissing s e) (heffector : BringsNone p.effector (p.key e.1)) :
    Alike e.1 (p.run s) ((p.without e.1).run s) ∧ ∃ pre post before after, p.dependents.entries = pre ++ e :: post ∧
      (p.run s).missing = before ++ p.key e.1 :: after ∧ ((p.without e.1).run s).missing = before ++ after ∧
      (∀ m ∈ before, ∃ e' ∈ pre, m = p.key e'.1) ∧ ∀ m ∈ after, ∃ e' ∈ post, m = p.key e'.1 := by
  obtain ⟨he, hitem, htemplate, hds, hmissing⟩ := h
  obtain ⟨pre, post, hes⟩ := List.append_of_mem he
  have hwithout : (p.without e.1).dependents.entries = pre ++ post := Table.entries_erase hes
  have hbegin : Alike e.1 (p.begin s) ((p.without e.1).begin s) := ⟨rfl, rfl, rfl, rfl, rfl, rfl⟩
  -- The two runs are alike up to the entry, and its node is still missing there.
  have hup := hbegin.foldl (p := p) hitem htemplate pre
  have hlacks : (pre.foldl p.entry (p.begin s)).surface.Lacks (p.key e.1).text :=
    (stage_induction (I := fun t _ _ => t.Lacks (p.key e.1).text) (Surface.lacks_iff.2 hmissing)
      fun _ _ _ _ _ _ hs hok => (change_of_applyOne hok).lacks heffector hitem rfl hs).2
  have hentry := entry_of_missing hitem (not_destroyed rfl hitem) hds (Surface.lacks_iff.1 hlacks)
  have hdown : Alike e.1 (p.entry (pre.foldl p.entry (p.begin s)) e)
      (pre.foldl (p.without e.1).entry ((p.without e.1).begin s)) := by
    rw [hentry]
    exact ⟨hup.alike.surface, hup.alike.table, hup.alike.edited, hup.alike.destroyed, hup.alike.detached,
      hup.alike.materialized⟩
  obtain ⟨halike, after, hafter, hafter', hpostKeys⟩ := hdown.foldl (p := p) hitem htemplate post
  obtain ⟨-, before, hbefore, hbefore', hpreKeys⟩ := hup
  have hrun : p.run s = post.foldl p.entry (p.entry (pre.foldl p.entry (p.begin s)) e) := by
    rw [run_eq, hes, List.foldl_append, List.foldl_cons]
  have hrun' : (p.without e.1).run s =
      post.foldl (p.without e.1).entry (pre.foldl (p.without e.1).entry ((p.without e.1).begin s)) := by
    rw [run_eq, hwithout, List.foldl_append]
  have hmissed : (p.run s).missing = before ++ p.key e.1 :: after := by
    rw [hrun, hafter, hentry]
    show (pre.foldl p.entry (p.begin s)).missing ++ [p.key e.1] ++ after = _
    rw [hbefore, List.append_assoc]
    rfl
  have hmissed' : ((p.without e.1).run s).missing = before ++ after := by
    rw [hrun', hafter', hbefore']
    rfl
  rw [← hrun, ← hrun'] at halike
  exact ⟨halike, pre, post, before, after, hes, hmissed, hmissed', hpreKeys, hpostKeys⟩

end Pass
end BoundPage
