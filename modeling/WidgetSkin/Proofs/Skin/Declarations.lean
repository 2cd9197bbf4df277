import Mathlib.Data.List.Basic
import WidgetSkin.Proofs.Skin.ReadBack
import WidgetSkin.Proofs.Success

/-!
# Declarations in a document

A document takes a declaration if its name, its keys and the measures that it shows stand on one
line each, and if a meter shows no more than eight. What it takes depends on nothing but the
declaration. So after any operations it holds the measures and the meters that were taken, each in
their order, and its text is cut into the lines of their sections.

## Main definitions

* `Document.run` — the document after some operations.
* `Document.taken` — the operations that were not refused.
* `DocumentOp.guarded`, `DocumentOp.Allowed` — what the rules ask of a declaration.

## Main statements

* `Document.addMeasure_eq_ok_iff`, `Document.addMeter_eq_ok_iff` — declarations that are taken.
* `Document.run_eq` — what a document holds after some operations.
* `Document.render_run` — what is written then.
-/

namespace WidgetSkin

namespace Document

variable {doc doc' : Document}

theorem requireSingleLines_eq_ok_iff {part : LinePart} {texts : List String} {u : Unit} :
    requireSingleLines part texts = .ok u ↔ ∀ text ∈ texts, Text.isSingleLine text = true := by
  unfold requireSingleLines
  cases hbroken : texts.find? fun s => !Text.isSingleLine s with
  | none => simpa using hbroken
  | some s =>
    have hs : Text.isSingleLine s = false := by simpa using List.find?_some hbroken
    refine iff_of_false (by simp) fun h => ?_
    rw [h s (List.mem_of_find?_eq_some hbroken)] at hs
    cases hs

/-- A measure is taken if its name and its keys stand on one line each. -/
theorem addMeasure_eq_ok_iff {d : MeasureDeclaration} :
    doc.addMeasure d = .ok doc' ↔
      (Text.isSingleLine d.name = true ∧
        ∀ key ∈ d.options.map Prod.fst, Text.isSingleLine key = true) ∧
      doc' = { doc with measures := doc.measures ++ [d] } := by
  simp only [addMeasure, bind_eq_ok_iff, requireSingleLines_eq_ok_iff, exists_const,
    pure_eq_ok_iff, List.forall_mem_singleton]
  grind

/-- A meter is taken if it shows at most eight measures, and if their names, its own and its keys
stand on one line each. -/
theorem addMeter_eq_ok_iff {d : MeterDeclaration} :
    doc.addMeter d = .ok doc' ↔
      (d.measures.length ≤ mostMeasures ∧ Text.isSingleLine d.name = true ∧
        (∀ name ∈ d.measures, Text.isSingleLine name = true) ∧
        ∀ key ∈ d.options.map Prod.fst, Text.isSingleLine key = true) ∧
      doc' = { doc with meters := doc.meters ++ [d] } := by
  unfold addMeter
  split
  · next hmany =>
    exact iff_of_false (fun h => by cases h) fun h => absurd h.1.1 (Nat.not_le.2 hmany)
  · next hfew =>
    simp only [bind_eq_ok_iff, requireSingleLines_eq_ok_iff, exists_const, pure_eq_ok_iff,
      List.forall_mem_singleton]
    grind

end Document

/-! ## What the rules ask of a declaration -/

namespace DocumentOp

/-- The measure that is declared. -/
def measure? : DocumentOp → Option MeasureDeclaration
  | addMeasure d => some d
  | addMeter _ => none

/-- The meter that is declared. -/
def meter? : DocumentOp → Option MeterDeclaration
  | addMeter d => some d
  | addMeasure _ => none

/-- The measures that a declaration refers to. -/
def references : DocumentOp → List String
  | addMeasure _ => []
  | addMeter d => d.measures

/-- The texts of a declaration that have to stand on one line each. -/
def guarded : DocumentOp → List String
  | addMeasure d => d.name :: d.options.map Prod.fst
  | addMeter d => d.name :: (d.measures ++ d.options.map Prod.fst)

/-- The rules allow a declaration. -/
def Allowed (op : DocumentOp) : Prop :=
  (∀ text ∈ op.guarded, Text.isSingleLine text = true) ∧ op.references.length ≤ mostMeasures

instance (op : DocumentOp) : Decidable op.Allowed :=
  inferInstanceAs (Decidable (_ ∧ _))

/-- The document with a declaration more. -/
def extending (doc : Document) : DocumentOp → Document
  | addMeasure d => { doc with measures := doc.measures ++ [d] }
  | addMeter d => { doc with meters := doc.meters ++ [d] }

theorem not_allowed_iff {op : DocumentOp} :
    ¬ op.Allowed ↔ (∃ text ∈ op.guarded, '\n' ∈ text.toList ∨ '\r' ∈ text.toList) ∨
      8 < op.references.length := by
  simp only [Allowed, Text.isSingleLine_iff, mostMeasures]
  grind

end DocumentOp

namespace Document

variable {doc doc' : Document} {op : DocumentOp}

/-- What a document takes does not depend on what it holds. -/
theorem add_eq_ok_iff : doc.add op = .ok doc' ↔ op.Allowed ∧ doc' = op.extending doc := by
  cases op with
  | addMeasure d =>
    rw [add, addMeasure_eq_ok_iff]
    simp [DocumentOp.Allowed, DocumentOp.guarded, DocumentOp.references, DocumentOp.extending]
  | addMeter d =>
    rw [add, addMeter_eq_ok_iff]
    simp only [DocumentOp.Allowed, DocumentOp.guarded, DocumentOp.references,
      DocumentOp.extending, List.forall_mem_cons, List.forall_mem_append]
    grind

theorem step_of_allowed (h : op.Allowed) (doc : Document) :
    doc.step op = ⟨.ok (), op.extending doc⟩ := by
  rw [step, add_eq_ok_iff.2 ⟨h, rfl⟩]

theorem step_of_not_allowed (h : ¬ op.Allowed) (doc : Document) :
    ∃ fault, doc.step op = ⟨.error fault, doc⟩ := by
  cases hadd : doc.add op with
  | ok next => exact absurd (add_eq_ok_iff.1 hadd).1 h
  | error fault => exact ⟨fault, by rw [step, hadd]⟩

/-! ## Runs -/

/-- The document after some operations. -/
def run (doc : Document) (ops : List DocumentOp) : Document :=
  ops.foldl (fun doc op => (doc.step op).document) doc

/-- The operations that were not refused. -/
def taken (doc : Document) : List DocumentOp → List DocumentOp
  | [] => []
  | op :: ops =>
    let s := doc.step op
    if s.result.isOk then op :: s.document.taken ops else s.document.taken ops

theorem run_cons (doc : Document) (op : DocumentOp) (ops : List DocumentOp) :
    doc.run (op :: ops) = (doc.step op).document.run ops := rfl

/-- The operations that the rules allow are taken, and no others. -/
theorem taken_eq_filter (doc : Document) (ops : List DocumentOp) :
    doc.taken ops = ops.filter fun op => op.Allowed := by
  induction ops generalizing doc with
  | nil => rfl
  | cons op ops ih =>
    by_cases h : op.Allowed
    · simp [taken, step_of_allowed h, h, ih, Except.isOk, Except.toBool]
    · obtain ⟨fault, hrefused⟩ := step_of_not_allowed h doc
      simp [taken, hrefused, h, ih, Except.isOk, Except.toBool]

/-- After some operations a document holds what it held, and what was taken. -/
theorem run_eq (doc : Document) (ops : List DocumentOp) :
    doc.run ops = { doc with
      measures := doc.measures ++ (doc.taken ops).filterMap DocumentOp.measure?
      meters := doc.meters ++ (doc.taken ops).filterMap DocumentOp.meter? } := by
  rw [taken_eq_filter]
  induction ops generalizing doc with
  | nil => simp [run]
  | cons op ops ih =>
    rw [run_cons, ih]
    by_cases h : op.Allowed
    · rw [step_of_allowed h, List.filter_cons_of_pos (by simpa using h)]
      cases op <;>
        simp [DocumentOp.extending, DocumentOp.measure?, DocumentOp.meter?, List.filterMap_cons]
    · obtain ⟨fault, hrefused⟩ := step_of_not_allowed h doc
      rw [hrefused, List.filter_cons_of_neg (by simpa using h)]

/-- Of each kind of declarations the allowed ones are taken, whatever comes in between. -/
theorem filterMap_taken {α : Type} {kind? : DocumentOp → Option α} {declare : α → DocumentOp}
    (hkind : ∀ op d, kind? op = some d → op = declare d) (doc : Document)
    (ops : List DocumentOp) :
    (doc.taken ops).filterMap kind? =
      (ops.filterMap kind?).filter fun d => (declare d).Allowed := by
  rw [taken_eq_filter, List.filterMap_filter, List.filter_filterMap]
  refine List.filterMap_congr fun op _ => ?_
  cases hd : kind? op with
  | none => simp
  | some d =>
    rw [hkind op d hd]
    by_cases h : (declare d).Allowed <;> simp [h, Option.filter]

theorem measures_taken (doc : Document) (ops : List DocumentOp) :
    (doc.taken ops).filterMap DocumentOp.measure? =
      (ops.filterMap DocumentOp.measure?).filter fun d => (DocumentOp.addMeasure d).Allowed := by
  refine filterMap_taken (fun op d h => ?_) doc ops
  cases op <;> cases h
  rfl

theorem meters_taken (doc : Document) (ops : List DocumentOp) :
    (doc.taken ops).filterMap DocumentOp.meter? =
      (ops.filterMap DocumentOp.meter?).filter fun d => (DocumentOp.addMeter d).Allowed := by
  refine filterMap_taken (fun op d h => ?_) doc ops
  cases op <;> cases h
  rfl

end Document

/-! ## Lines -/

theorem isSingleLine_measureKey (index : Nat) : Text.isSingleLine (measureKey index) = true := by
  have hword : Text.isSingleLine "MeasureName" = true := by decide
  unfold measureKey
  split
  · exact hword
  · rw [Text.isSingleLine_append, hword]
    exact Text.isSingleLine_repr (index + 1)

theorem MeasureDeclaration.unbroken_toSection {d : MeasureDeclaration}
    (h : (DocumentOp.addMeasure d).Allowed) : d.toSection.Unbroken := by
  obtain ⟨hname, hkeys⟩ := List.forall_mem_cons.1 h.1
  have hmeasure : Text.isSingleLine "Measure" = true := by decide
  refine ⟨hname, List.forall_mem_cons.2 ⟨hmeasure, fun entry hentry => ?_⟩⟩
  exact hkeys entry.1 (List.mem_map_of_mem hentry)

theorem MeterDeclaration.unbroken_toSection {d : MeterDeclaration}
    (h : (DocumentOp.addMeter d).Allowed) : d.toSection.Unbroken := by
  obtain ⟨hname, htexts⟩ := List.forall_mem_cons.1 h.1
  obtain ⟨-, hkeys⟩ := List.forall_mem_append.1 htexts
  have hmeter : Text.isSingleLine "Meter" = true := by decide
  refine ⟨hname, List.forall_mem_cons.2 ⟨hmeter, List.forall_mem_append.2 ⟨?_, ?_⟩⟩⟩
  · intro entry hentry
    obtain ⟨i, hi, rfl⟩ := List.mem_mapIdx.1 hentry
    exact isSingleLine_measureKey i
  · exact fun entry hentry => hkeys entry.1 (List.mem_map_of_mem hentry)

namespace Document

variable {header : List Section}

theorem sections_run (header : List Section) (ops : List DocumentOp) :
    let doc : Document := { header }
    (doc.run ops).sections =
      header ++
        ((doc.taken ops).filterMap DocumentOp.measure?).map MeasureDeclaration.toSection ++
        ((doc.taken ops).filterMap DocumentOp.meter?).map MeterDeclaration.toSection := by
  intro doc
  rw [run_eq]
  rfl

/-- Whatever is declared, no line of a document breaks. -/
theorem unbroken_run (hheader : ∀ s ∈ header, s.Unbroken) (ops : List DocumentOp) :
    ∀ s ∈ (({ header } : Document).run ops).sections, s.Unbroken := by
  simp only [sections_run, measures_taken, meters_taken, List.forall_mem_append,
    List.forall_mem_map, List.mem_filter, decide_eq_true_eq]
  exact ⟨⟨hheader, fun d hd => d.unbroken_toSection hd.2⟩,
    fun d hd => d.unbroken_toSection hd.2⟩

/-- Measures and meters are kept apart: it does not matter how they are interleaved. -/
theorem run_congr (doc : Document) {ops ops' : List DocumentOp}
    (hmeasures : ops'.filterMap DocumentOp.measure? = ops.filterMap DocumentOp.measure?)
    (hmeters : ops'.filterMap DocumentOp.meter? = ops.filterMap DocumentOp.meter?) :
    doc.run ops' = doc.run ops := by
  rw [run_eq, run_eq, measures_taken, meters_taken, measures_taken, meters_taken, hmeasures,
    hmeters]

/-- A document writes what was declared and nothing else. A declaration is refused exactly if a
text of it that has to stand on one line does not, or if a meter shows more than eight measures;
the document is then what it was. The text after some operations is that of the header, the
measures that were taken and the meters that were taken, however the two are interleaved. Cut into
lines it consists of, for every section, its name in brackets, one line for each entry and an
empty line. -/
theorem render_run
    (hheader : ∀ s ∈ header, OnOneLine s.name ∧ ∀ entry ∈ s.entries, OnOneLine entry.1)
    (ops : List DocumentOp) :
    let start : Document := { header }
    let sections := header ++
      ((start.taken ops).filterMap DocumentOp.measure?).map MeasureDeclaration.toSection ++
      ((start.taken ops).filterMap DocumentOp.meter?).map MeterDeclaration.toSection
    (∀ (doc : Document) (op : DocumentOp),
      ((∃ fault, (doc.step op).result = .error fault) ↔
        (∃ text ∈ op.guarded, '\n' ∈ text.toList ∨ '\r' ∈ text.toList) ∨
          8 < op.references.length) ∧
      ∀ fault, (doc.step op).result = .error fault → (doc.step op).document = doc) ∧
    (start.run ops).render = String.join (sections.map Section.render) ∧
    (∀ ops', ops'.filterMap DocumentOp.measure? = ops.filterMap DocumentOp.measure? →
      ops'.filterMap DocumentOp.meter? = ops.filterMap DocumentOp.meter? →
      (start.run ops').render = (start.run ops).render) ∧
    (start.run ops).render.toList.splitOn '\n' =
      sections.flatMap (fun s => ("[" ++ s.name ++ "]").toList ::
        (s.entries.map fun entry =>
          (entry.1 ++ "=" ++ Text.LineBreak.encode entry.2).toList) ++ [[]]) ++ [[]] ∧
    '\r' ∉ (start.run ops).render.toList := by
  intro start sections
  have hsections : (start.run ops).sections = sections := sections_run header ops
  have hunbroken : ∀ s ∈ (start.run ops).sections, s.Unbroken := by
    refine unbroken_run (fun s hs => ⟨onOneLine_iff.1 (hheader s hs).1, fun entry hentry => ?_⟩) ops
    exact onOneLine_iff.1 ((hheader s hs).2 entry hentry)
  refine ⟨fun doc op => ?_, by rw [render, hsections], fun ops' hmeasures hmeters => ?_, ?_,
    carriageReturn_not_mem_render_of_unbroken hunbroken⟩
  · rw [← DocumentOp.not_allowed_iff]
    by_cases h : op.Allowed
    · rw [step_of_allowed h]
      simp [h]
    · obtain ⟨fault, hrefused⟩ := step_of_not_allowed h doc
      rw [hrefused]
      exact ⟨iff_of_true ⟨fault, rfl⟩ h, fun _ _ => rfl⟩
  · rw [run_congr start hmeasures hmeters]
  · rw [splitOn_render_of_unbroken hunbroken, hsections]
    simp [Section.lines, Section.entryLine, Function.comp_def]

/-- A meter before its measure, and between them a name that tries to open a section. -/
def forgedDeclarations : List DocumentOp :=
  [.addMeter ⟨"Clock", .string, ["MeasureClock"], [("Text", "%1\nsharp")]⟩,
    .addMeasure ⟨"MeasureClock\n[Rainmeter]", .time, []⟩,
    .addMeter ⟨"Crowd", .string, List.replicate 9 "MeasureClock", []⟩,
    .addMeasure ⟨"MeasureClock", .time, []⟩]

/-- What is refused leaves no trace in the text, and no value breaks its line. -/
theorem render_run_forgedDeclarations :
    let header : List Section := [⟨"Rainmeter", [("Update", "1000")]⟩]
    let doc := ({ header } : Document).run forgedDeclarations
    doc.render = "[Rainmeter]\nUpdate=1000\n\n[MeasureClock]\nMeasure=Time\n\n" ++
      "[Clock]\nMeter=String\nMeasureName=MeasureClock\nText=%1#CRLF#sharp\n\n" ∧
    '\r' ∉ doc.render.toList := by
  intro header doc
  have hheader : ∀ s ∈ header, OnOneLine s.name ∧ ∀ entry ∈ s.entries, OnOneLine entry.1 := by
    simp only [header, OnOneLine]
    decide
  obtain ⟨-, -, -, -, hreturn⟩ := render_run hheader forgedDeclarations
  exact ⟨by decide +kernel, hreturn⟩

end Document

end WidgetSkin
