import BoundPage.Proofs.Engine.Forests
import BoundPage.Proofs.Keys
import BoundPage.Proofs.Write.Missing
import BoundPage.Recording.Check
/-!
# What a check foretells

A check looks for all nodes on the page as it was mounted, and a write looks for one node after the other on a page that
it is changing.  The first write to a variable misses what the check reports, and beside that the nodes that the write
itself takes away before it comes to them (`missing_of_first_write`).
-/
namespace BoundPage
open RenderTarget

/-- **The check reports an external child, and the report reads as one of a variable with such a name.** -/
structure Registration.ReadsAs (r : Registration) (s : Surface) (id name element : String) : Prop where
  untagged : s.externals (NodeKey.text ⟨r.object, id⟩) = []
  owner : name = "external " ++ r.object
  element : element = "ext " ++ r.object

namespace Recording

variable {p : Page} {i : PageInstance} {name element : String} {v : Variable}

def Page.surface (p : Page) : Surface := .ofMarkup p.trees

/-- The pass of the first write to a variable. -/
def PageInstance.pass (i : PageInstance) (options : Options) (v : Variable) (value : Scalar) : Pass Surface where
  effector := inlineStyles
  options := options
  instanceId := i.id
  value := value.render
  dependents := v.dependents

/-- The check reports an element as missing for a variable. -/
def Page.Reports (p : Page) (id name element : String) : Prop :=
  (⟨id, name, NodeKey.text ⟨element, id⟩, false⟩ : Finding) ∈ p.problems

instance (p : Page) (id name element : String) : Decidable (p.Reports id name element) :=
  inferInstanceAs (Decidable (_ ∈ p.problems))

/-! ## What the check reports -/

namespace Finding

variable {s : Surface} {id owner : String} {f : Finding}

theorem ofElement_eq_iff {element' : String} :
    ofElement s id owner element' = ⟨id, name, NodeKey.text ⟨element, id⟩, false⟩ ↔
      owner = name ∧ element' = element ∧ s.locate ⟨element, id⟩ = none := by
  unfold ofElement
  rw [Finding.mk.injEq, and_iff_right rfl]
  refine and_congr_right fun _ => ?_
  constructor
  · rintro ⟨htext, hfound⟩
    obtain rfl := NodeKey.text_inj_of_instance htext
    exact ⟨rfl, by simpa using hfound⟩
  · rintro ⟨rfl, hl⟩
    exact ⟨rfl, by rw [hl]; rfl⟩

theorem mem_ofVariable : (⟨id, name, NodeKey.text ⟨element, id⟩, false⟩ : Finding) ∈ ofVariable s id owner v ↔
    owner = name ∧ (element ∈ v.dependents.names ∧ Element.isItem element = false) ∧
      s.locate ⟨element, id⟩ = none := by
  unfold ofVariable
  rw [List.mem_map]
  constructor
  · rintro ⟨element', hmem, h⟩
    obtain ⟨howner, rfl, hl⟩ := ofElement_eq_iff.1 h
    exact ⟨howner, by simpa using List.mem_filter.1 hmem, hl⟩
  · rintro ⟨howner, hmem, hl⟩
    exact ⟨element, List.mem_filter.2 (by simpa using hmem), ofElement_eq_iff.2 ⟨howner, rfl, hl⟩⟩

theorem mem_ofRegistration {r : Registration} :
    (⟨id, name, NodeKey.text ⟨element, id⟩, false⟩ : Finding) ∈ ofRegistration s id r ↔
      ("external " ++ r.object = name ∧ element ∈ r.slot :: r.condition ∧ s.locate ⟨element, id⟩ = none) ∨
        r.ReadsAs s id name element := by
  have hassoc : "ext " ++ NodeKey.text ⟨r.object, id⟩ = NodeKey.text ⟨"ext " ++ r.object, id⟩ := by
    simp only [NodeKey.text, String.append_assoc]
  unfold ofRegistration
  rw [List.mem_append, ← List.map_cons, List.mem_map]
  refine or_congr ⟨?_, ?_⟩ ?_
  · rintro ⟨element', hmem, h⟩
    obtain ⟨howner, rfl, hl⟩ := ofElement_eq_iff.1 h
    exact ⟨howner, hmem, hl⟩
  · rintro ⟨howner, hmem, hl⟩
    exact ⟨element, hmem, ofElement_eq_iff.2 ⟨howner, rfl, hl⟩⟩
  · constructor
    · intro h
      split at h
      · next hnone =>
        obtain ⟨-, howner, hkey, -⟩ := Finding.mk.inj (List.mem_singleton.1 h)
        exact ⟨List.isEmpty_iff.1 hnone, howner, NodeKey.text_inj_of_instance (hkey.trans hassoc)⟩
      · cases h
    · rintro ⟨hnone, rfl, rfl⟩
      rw [if_pos (List.isEmpty_iff.2 hnone), hassoc]
      exact List.mem_singleton.2 rfl

theorem instanceId_of_mem (h : f ∈ ofInstance s i) : f.instanceId = i.id := by
  rcases List.mem_append.1 h with h | h
  · obtain ⟨e, -, h⟩ := List.mem_flatMap.1 h
    obtain ⟨element, -, rfl⟩ := List.mem_map.1 h
    rfl
  · obtain ⟨r, -, h⟩ := List.mem_flatMap.1 h
    rcases List.mem_append.1 h with h | h
    · rw [← List.map_cons] at h
      obtain ⟨element, -, rfl⟩ := List.mem_map.1 h
      rfl
    · split at h
      · rw [List.mem_singleton.1 h]
      · cases h

end Finding

/-- **An element of a variable is reported exactly if it has no node**, or the report of an external child reads the
same. -/
theorem reports_iff (hids : (p.instances.map (·.id)).Nodup) (hi : i ∈ p.instances)
    (hv : (name, v) ∈ i.inst.store.entries) (he : element ∈ v.dependents.names)
    (hitem : Element.isItem element = false) :
    p.Reports i.id name element ↔ p.surface.locate ⟨element, i.id⟩ = none ∨
      ∃ r ∈ i.inst.externals.registrations, r.ReadsAs p.surface i.id name element := by
  unfold Page.Reports Page.problems Page.findings
  refine List.mem_filter.trans ((and_iff_left rfl).trans ?_)
  rw [List.mem_flatMap]
  constructor
  · rintro ⟨j, hj, h⟩
    obtain rfl : j = i := List.inj_on_of_nodup_map hids hj hi (Finding.instanceId_of_mem h).symm
    rcases List.mem_append.1 h with h | h
    · obtain ⟨e, -, h⟩ := List.mem_flatMap.1 h
      exact .inl (Finding.mem_ofVariable.1 h).2.2
    · obtain ⟨r, hr, h⟩ := List.mem_flatMap.1 h
      exact (Finding.mem_ofRegistration.1 h).imp (·.2.2) fun hreads => ⟨r, hr, hreads⟩
  · rintro (hl | ⟨r, hr, hreads⟩)
    · refine ⟨i, hi, List.mem_append_left _ (List.mem_flatMap.2 ⟨(name, v), hv, ?_⟩)⟩
      exact Finding.mem_ofVariable.2 ⟨rfl, ⟨he, hitem⟩, hl⟩
    · exact ⟨i, hi, List.mem_append_right _ (List.mem_flatMap.2 ⟨r, hr, Finding.mem_ofRegistration.2 (.inr hreads)⟩)⟩

/-! ## What the first write misses -/

namespace Page

theorem engine_eq (p : Page) (options : Options) : p.engine options =
    { (Engine.new p.surface () : PageEngine) with
      options, instances := .ofList (p.instances.map fun i => (i.id, i.inst)) } := by
  have hstart : ∀ (is : List PageInstance) (g : PageEngine), is.foldl (fun g i => (g.start i.id i.inst).state) g =
      { g with instances := g.instances.insertAll (is.map fun i => (i.id, i.inst)) } := fun is => by
    induction is with
    | nil => exact fun _ => rfl
    | cons i is ih => exact fun g => ih _
  exact hstart p.instances _

theorem instance?_engine (hids : (p.instances.map (·.id)).Nodup) (options : Options) (hi : i ∈ p.instances) :
    (p.engine options).instance? i.id = some i.inst := by
  rw [engine_eq]
  refine Table.get?_eq_some.2 ?_
  rw [Table.entries_ofList (by rwa [List.map_map])]
  exact List.mem_map_of_mem hi

/-- **The first write to a variable reports what its pass over the mounted page misses.** -/
theorem exists_report (hids : (p.instances.map (·.id)).Nodup) (options : Options) (hi : i ∈ p.instances)
    (hv : (name, v) ∈ i.inst.store.entries) (value : Scalar) :
    ∃ report, ((p.engine options).write i.id name value).answer = .applied report ∧
      report.missing = ((i.pass options v value).run p.surface).missing := by
  unfold Engine.write Instance.write
  rw [instance?_engine hids options hi]
  simp only [Table.get?_eq_some.2 hv]
  refine ⟨_, rfl, ?_⟩
  rw [engine_eq]
  rfl

end Page

/-- **The first write to a variable misses what the check reports, and what it takes away itself** before it comes to
it. -/
theorem missing_of_first_write (hids : (p.instances.map (·.id)).Nodup) (options : Options) (hi : i ∈ p.instances)
    (hv : (name, v) ∈ i.inst.store.entries) (value : Scalar) :
    ∃ report, ((p.engine options).write i.id name value).answer = .applied report ∧
      (∀ e ∈ v.dependents.entries, Element.isItem e.1 = false → e.2 ≠ [] →
        (∀ r ∈ i.inst.externals.registrations, ¬ r.ReadsAs p.surface i.id name e.1) →
        (⟨e.1, i.id⟩ ∈ report.missing ↔ p.Reports i.id name e.1 ∨ (i.pass options v value).Loses p.surface e)) ∧
      (p.problems = [] → (∀ e ∈ v.dependents.entries, Element.isItem e.1 = false) →
        (report.missing = [] ↔
          ∀ e ∈ v.dependents.entries, e.2 ≠ [] → ¬ (i.pass options v value).Loses p.surface e)) := by
  obtain ⟨report, hreport, hmissing⟩ := Page.exists_report hids options hi hv value
  have hiff : ∀ e ∈ v.dependents.entries, Element.isItem e.1 = false → e.2 ≠ [] → (⟨e.1, i.id⟩ ∈ report.missing ↔
      p.surface.locate ⟨e.1, i.id⟩ = none ∨ (i.pass options v value).Loses p.surface e) := fun e he hitem hds => by
    rw [hmissing]
    exact Pass.missing_iff rfl (Surface.forest_ofMarkup p.trees).toRooted hitem he hds
  have hnames : ∀ e ∈ v.dependents.entries, e.1 ∈ v.dependents.names := fun e he => List.mem_map_of_mem he
  refine ⟨report, hreport, fun e he hitem hds hother => ?_, fun hok hitems =>
    ⟨fun hnone e he hds hloses => ?_, fun h => ?_⟩⟩
  · rw [hiff e he hitem hds, reports_iff hids hi hv (hnames e he) hitem]
    refine or_congr_left (or_iff_left ?_).symm
    rintro ⟨r, hr, hreads⟩
    exact hother r hr hreads
  · have hmem := (hiff e he (hitems e he) hds).2 (.inr hloses)
    rw [hnone] at hmem
    cases hmem
  · rw [List.eq_nil_iff_forall_not_mem]
    intro m hm
    obtain ⟨e, he, hds, rfl⟩ : ∃ e ∈ v.dependents.entries, e.2 ≠ [] ∧ m = ⟨e.1, i.id⟩ := by
      rw [hmissing] at hm
      exact Pass.exists_of_mem_missing hm
    refine h e he hds (((hiff e he (hitems e he) hds).1 hm).resolve_left fun hl => ?_)
    have hreports := (reports_iff hids hi hv (hnames e he) (hitems e he)).2 (.inl hl)
    unfold Page.Reports at hreports
    rw [hok] at hreports
    cases hreports

/-! ## Where the check says something else -/

/-- **The first write to any variable misses exactly what the check reports.** -/
def Page.Foretold (p : Page) : Prop :=
  (p.instances.map (·.id)).Nodup → ∀ (options : Options), ∀ i ∈ p.instances, ∀ name v,
    (name, v) ∈ i.inst.store.entries → ∀ (value : Scalar) (report : WriteReport),
    ((p.engine options).write i.id name value).answer = .applied report →
    (∀ e ∈ v.dependents.entries, Element.isItem e.1 = false → e.2 ≠ [] →
      (⟨e.1, i.id⟩ ∈ report.missing ↔ p.Reports i.id name e.1)) ∧
    (p.problems = [] → (∀ e ∈ v.dependents.entries, Element.isItem e.1 = false) → report.missing = [])

/-- The variable is shown in a box and in a label inside the box. -/
def nestedVariable : Variable where
  dependents := .ofList [("box", [.value]), ("inner", [.value])]

def nestedInstance : PageInstance where
  id := "main"
  inst := { store := .ofList [("x", nestedVariable)] }

def nestedPage : Page where
  trees := [{ tag := "div", id := "box:main", children := [{ tag := "p", id := "inner:main" }] }]
  instances := [nestedInstance]

theorem nestedVariable_inner : ("inner", [.value]) ∈ nestedVariable.dependents.entries :=
  List.mem_cons_of_mem _ List.mem_cons_self

/-- Showing the value in the box takes the label away. -/
theorem loses_inner (options : Options) (value : Scalar) :
    (nestedInstance.pass options nestedVariable value).Loses nestedPage.surface ("inner", [.value]) := by
  have hinner : ∀ m < nestedPage.surface.size, (nestedPage.surface.node m).id = some "inner:main" → m = 1 := by
    decide +kernel
  have hlive : (nestedPage.surface.node 1).live ∧ (nestedPage.surface.node 1).id = some "inner:main" := by
    decide +kernel
  have hbox : nestedPage.surface.locate ⟨"box", "main"⟩ = some 0 := by decide +kernel
  have hplain : NodeKey.isTemplate ⟨"box", "main"⟩ = false := by decide +kernel
  have hchild : 1 ∈ (nestedPage.surface.node 0).children := by decide +kernel
  have hahead : (nestedInstance.pass options nestedVariable value).Ahead nestedPage.surface ("inner", [.value])
      ("box", [.value]) [.value] ((nestedInstance.pass options nestedVariable value).begin nestedPage.surface) :=
    .inl ⟨[("box", [.value])], [], rfl, [], [], [], rfl, rfl, rfl, rfl⟩
  refine ⟨("box", [.value]), [], _, hahead, ⟨1, hlive⟩, ?_⟩
  rintro m ⟨hl, hid⟩
  obtain rfl := hinner m (Surface.lt_size_of_live _ hl) hid
  exact .text rfl hplain hbox hchild (.refl _)

/-- The check finds both nodes, and the first write misses the label. -/
theorem missing_of_first_write_nested : nestedPage.problems = [] ∧
    ∃ report, ((nestedPage.engine {}).write "main" "x" (.text "a")).answer = .applied report ∧
      ⟨"inner", "main"⟩ ∈ report.missing ∧ report.missing ≠ [] := by
  obtain ⟨report, hreport, hiff, hnil⟩ := missing_of_first_write (p := nestedPage) (i := nestedInstance)
    (by decide) {} List.mem_cons_self (List.mem_cons_self (a := ("x", nestedVariable))) (.text "a")
  have hok : nestedPage.problems = [] := by decide +kernel
  refine ⟨hok, report, hreport, ?_, fun h => ?_⟩
  · exact (hiff ("inner", [.value]) nestedVariable_inner (by decide +kernel) (by decide) (fun _ h => by cases h)).2
      (.inr (loses_inner _ _))
  · exact (hnil hok (by decide +kernel)).1 h ("inner", [.value]) nestedVariable_inner (by decide) (loses_inner _ _)

/-- A variable and its element that are called as the check calls an external child. -/
def namesakeVariable : Variable where
  dependents := .ofList [("ext popup", [.value])]

def namesakeInstance : PageInstance where
  id := "main"
  inst :=
    { store := .ofList [("external popup", namesakeVariable)]
      externals := { registrations := [{ object := "popup", slot := "slot" }] } }

def namesakePage : Page where
  trees := [{ tag := "div", id := "slot:main", children := [{ tag := "p", id := "ext popup:main" }] }]
  instances := [namesakeInstance]

/-- **The check does not foretell everything**: it finds a node that the first write takes away, and what it says of an
external child can be taken for a variable. -/
theorem not_foretold : ¬ nestedPage.Foretold ∧ ¬ namesakePage.Foretold := by
  constructor
  · intro h
    obtain ⟨report, hreport, hmissing⟩ := Page.exists_report (p := nestedPage) (i := nestedInstance) (by decide) {}
      List.mem_cons_self (List.mem_cons_self (a := ("x", nestedVariable))) (.text "a")
    have hnone := (h (by decide) {} _ List.mem_cons_self _ _ List.mem_cons_self _ report hreport).2 (by decide +kernel)
      (by decide +kernel)
    rw [hmissing] at hnone
    exact absurd hnone (by decide +kernel)
  · intro h
    obtain ⟨report, hreport, hmissing⟩ := Page.exists_report (p := namesakePage) (i := namesakeInstance) (by decide) {}
      List.mem_cons_self (List.mem_cons_self (a := ("external popup", namesakeVariable))) (.text "a")
    have hiff := (h (by decide) {} _ List.mem_cons_self _ _ List.mem_cons_self _ report hreport).1
      ("ext popup", [.value]) List.mem_cons_self (by decide +kernel) (by decide)
    rw [hmissing] at hiff
    exact absurd (hiff.2 (by decide +kernel)) (by decide +kernel)

end Recording
end BoundPage
