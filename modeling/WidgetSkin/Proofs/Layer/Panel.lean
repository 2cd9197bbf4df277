import WidgetSkin.Layer.Needle
import WidgetSkin.Proofs.Decimal.Format
import WidgetSkin.Proofs.Success
import WidgetSkin.Proofs.Text.Blank

/-!
# The calibration of a needle in the property panel

A text that is typed into the panel is taken if its name is one of the four numbers and it reads as
a finite number, and then changes that number only. So all numbers stay finite, and the names and
texts that the panel shows lead back to them: typed in any order into a needle with the same image,
they give a needle with the same numbers, a zero of either sign becoming zero.

## Main definitions

* `Needle.Means` — the number that a name and a text set.
* `Needle.typeAll` — what a series of typed texts makes of a needle, if all are taken.
* `Needle.run` — what it makes of a needle that ignores the texts that are refused.

## Main statements

* `Needle.setProperty_eq_ok_iff` — the texts that are taken.
* `Needle.FiniteNumbers.run` — the numbers stay finite.
* `Needle.properties_replay` — the texts of the panel typed in again.
-/

namespace WidgetSkin

namespace Decimal

/-! ## Number texts that are typed -/

theorem trim_format (x : Float) : Text.trim (format x).toList = (format x).toList := by
  have hblank := not_blank_of_mem_literal (format_mem_literal x)
  exact Text.trim_eq_iff.2 ⟨[], [], by simp, by simp, by simp,
    fun c hc => hblank c (List.mem_of_head? hc), fun c hc => hblank c (List.mem_of_getLast? hc)⟩

/-- A finite double is typed as its number text and read as the double, a zero of either sign as
zero. -/
theorem readFloat?_trim_format {x : Float} (h : x.isFinite = true) :
    readFloat? (Text.trim (format x).toList) = some (if x == 0 then 0 else x) := by
  rw [trim_format]
  split
  · next hzero =>
    rw [beq_zero_iff] at hzero
    exact readFloat?_format_zero fun hne => hne.2 hzero
  · next hzero =>
    rw [beq_zero_iff] at hzero
    exact readFloat?_format h hzero

theorem format_ite_zero (x : Float) : format (if x == 0 then 0 else x) = format x := by
  split
  · next hzero =>
    rw [beq_zero_iff] at hzero
    rw [format_eq_zero (x := x) fun h => h.2 hzero]
    decide
  · rfl

end Decimal

open Decimal

namespace Needle

variable {n m r : Needle} {p : Property} {v : Float} {name value : String}

/-! ## One text -/

theorem Property.ofLabel?_eq_some_iff : Property.ofLabel? name = some p ↔ p.label = name := by
  constructor
  · intro h
    simpa using List.find?_some h
  · rintro rfl
    cases p <;> decide

theorem Property.mem_all (p : Property) : p ∈ Property.all := by
  cases p <;> decide

theorem Property.label_inj {q : Property} : p.label = q.label ↔ p = q := by
  constructor
  · cases p <;> cases q <;> decide
  · rintro rfl
    rfl

/-- A typed name and text set a number to a finite value. -/
structure Means (name value : String) (p : Property) (v : Float) : Prop where
  label_eq : p.label = name
  read_eq : readFloat? (Text.trim value.toList) = some v
  isFinite : v.isFinite = true

theorem setProperty_eq_ok_iff :
    n.setProperty name value = .ok r ↔ ∃ p v, Means name value p v ∧ r = n.set p v := by
  unfold setProperty
  constructor
  · intro h
    split at h
    · cases h
    · next v hread =>
      split at h
      · cases h
      · next hfinite =>
        split at h
        · cases h
        · next p hlabel =>
          cases h
          exact ⟨p, v, ⟨Property.ofLabel?_eq_some_iff.1 hlabel, hread, by simpa using hfinite⟩, rfl⟩
  · rintro ⟨p, v, ⟨hlabel, hread, hfinite⟩, rfl⟩
    rw [hread, Property.ofLabel?_eq_some_iff.2 hlabel]
    simp [hfinite]

/-! ## A series of texts -/

/-- The needle after a series of typed texts, if all of them are taken. -/
def typeAll (n : Needle) (texts : List (String × String)) : Except Fault Needle :=
  texts.foldlM (fun n text => n.setProperty text.1 text.2) n

/-- The needle after a typed text; one that is refused leaves it as it is. -/
def type (n : Needle) (text : String × String) : Needle :=
  (n.setProperty text.1 text.2).toOption.getD n

/-- The needle after a series of typed texts. -/
def run (n : Needle) (texts : List (String × String)) : Needle :=
  texts.foldl type n

theorem type_eq_of_ok (h : n.setProperty name value = .ok r) : n.type (name, value) = r := by
  rw [type, h]
  rfl

theorem type_eq_of_error {e : Fault} (h : n.setProperty name value = .error e) :
    n.type (name, value) = n := by
  rw [type, h]
  rfl

/-- The numbers of the calibration are finite. -/
def FiniteNumbers (n : Needle) : Prop :=
  ∀ p, (n.get p).isFinite = true

theorem FiniteNumbers.set (h : n.FiniteNumbers) (p : Property) (hv : v.isFinite = true) :
    (n.set p v).FiniteNumbers := by
  intro q
  rw [get_set]
  split
  · exact hv
  · exact h q

/-- One text keeps the image and leaves the numbers finite. -/
theorem FiniteNumbers.type (h : n.FiniteNumbers) (text : String × String) :
    (n.type text).FiniteNumbers ∧ (n.type text).source = n.source := by
  obtain ⟨name, value⟩ := text
  cases hset : n.setProperty name value with
  | error e =>
    rw [type_eq_of_error hset]
    exact ⟨h, rfl⟩
  | ok r =>
    obtain ⟨p, v, hmeans, rfl⟩ := setProperty_eq_ok_iff.1 hset
    rw [type_eq_of_ok hset, source_set]
    exact ⟨h.set p hmeans.isFinite, rfl⟩

theorem FiniteNumbers.run (h : n.FiniteNumbers) (texts : List (String × String)) :
    (n.run texts).FiniteNumbers ∧ (n.run texts).source = n.source := by
  induction texts generalizing n with
  | nil => exact ⟨h, rfl⟩
  | cons text texts ih =>
    obtain ⟨htype, hsource⟩ := h.type text
    obtain ⟨hrun, hkeeps⟩ := ih htype
    exact ⟨hrun, hkeeps.trans hsource⟩

theorem finiteNumbers_new (source : String) : ({ source } : Needle).FiniteNumbers := by
  have hzero : (0 : Float).isFinite = true := by decide
  have hninety : (90 : Float).isFinite = true := by decide
  intro p
  cases p
  · exact hzero
  · exact hzero
  · exact hzero
  · exact hninety

/-! ## The texts of the panel -/

/-- What the panel shows of one number. -/
def shown (n : Needle) (p : Property) : String × String :=
  (p.label, format (n.get p))

theorem shown_inj {q : Property} : n.shown p = n.shown q ↔ p = q := by
  constructor
  · intro h
    exact Property.label_inj.1 (Prod.ext_iff.1 h).1
  · rintro rfl
    rfl

theorem mem_properties_iff {text : String × String} :
    text ∈ n.properties ↔ ∃ p, n.shown p = text := by
  simp [properties, shown, Property.mem_all]

/-- A shown text that is typed sets its number, a zero of either sign to zero. -/
theorem setProperty_shown (h : n.FiniteNumbers) (p : Property) (m : Needle) :
    m.setProperty (n.shown p).1 (n.shown p).2 =
      .ok (m.set p (if n.get p == 0 then 0 else n.get p)) := by
  refine setProperty_eq_ok_iff.2 ⟨p, _, ⟨rfl, readFloat?_trim_format (h p), ?_⟩, rfl⟩
  split
  · decide
  · exact h p

/-- Some of the shown texts, in any order, set their numbers and no other. -/
theorem exists_typeAll_eq (h : n.FiniteNumbers) {texts : List (String × String)}
    (htexts : ∀ text ∈ texts, text ∈ n.properties) (m : Needle) :
    ∃ r, m.typeAll texts = .ok r ∧ r.source = m.source ∧ ∀ p, r.get p =
      if n.shown p ∈ texts then (if n.get p == 0 then 0 else n.get p) else m.get p := by
  induction texts generalizing m with
  | nil => exact ⟨m, rfl, rfl, by simp⟩
  | cons text texts ih =>
    obtain ⟨p, rfl⟩ := mem_properties_iff.1 (htexts text List.mem_cons_self)
    obtain ⟨r, hr, hsource, hget⟩ := ih (fun text hmem => htexts text (List.mem_cons_of_mem _ hmem))
      (m.set p (if n.get p == 0 then 0 else n.get p))
    refine ⟨r, ?_, hsource.trans (source_set m p _), fun q => ?_⟩
    · rw [typeAll, List.foldlM_cons, setProperty_shown h p m, ok_bind]
      exact hr
    · rw [hget q, get_set]
      by_cases hq : q = p
      · subst hq
        simp
      · simp [hq, shown_inj]

/-- The shown texts, typed in any order into a needle with the same image, give the same numbers and
are shown again. -/
theorem typeAll_perm_properties (h : n.FiniteNumbers) {texts : List (String × String)}
    (hperm : texts.Perm n.properties) (m : Needle) :
    ∃ r, m.typeAll texts = .ok r ∧ r.source = m.source ∧
      (∀ p, r.get p = if n.get p == 0 then 0 else n.get p) ∧ r.properties = n.properties := by
  obtain ⟨r, hr, hsource, hget⟩ := exists_typeAll_eq h (fun _ hmem => hperm.mem_iff.1 hmem) m
  have hall : ∀ p, r.get p = if n.get p == 0 then 0 else n.get p := fun p => by
    rw [hget p, if_pos (hperm.mem_iff.2 (mem_properties_iff.2 ⟨p, rfl⟩))]
  refine ⟨r, hr, hsource, hall, ?_⟩
  simp only [properties, hall, format_ite_zero]

/-- After any series of typed texts the next one is taken exactly if its name is one of the four
numbers and it reads as a finite number; it sets this number and nothing else, and one that is
refused changes nothing. The texts that the panel then shows, typed in any order into any needle
with the same image, are taken and give the same numbers, a zero of either sign as zero, so that the
same texts are shown again. -/
theorem properties_replay (source : String) (typed : List (String × String)) :
    let n := run { source } typed
    (∀ name value,
      ((∃ r, n.setProperty name value = .ok r) ↔ ∃ p v, Means name value p v) ∧
      (∀ p v, Means name value p v → (n.type (name, value)).source = n.source ∧
        ∀ q, (n.type (name, value)).get q = if q = p then v else n.get q) ∧
      ∀ e, n.setProperty name value = .error e → n.type (name, value) = n) ∧
    n.source = source ∧ (∀ p, (n.get p).isFinite = true) ∧
    ∀ m : Needle, m.source = source → ∀ texts, texts.Perm n.properties →
      ∃ r, m.typeAll texts = .ok r ∧ r.source = source ∧
        (∀ p, r.get p = if n.get p == 0 then 0 else n.get p) ∧ r.properties = n.properties := by
  obtain ⟨hfinite, hsource⟩ := (finiteNumbers_new source).run typed
  refine ⟨fun name value => ⟨?_, fun p v hmeans => ?_, fun e => type_eq_of_error⟩, hsource, hfinite,
    fun m hm texts hperm => ?_⟩
  · simp only [setProperty_eq_ok_iff]
    constructor
    · rintro ⟨r, p, v, hmeans, -⟩
      exact ⟨p, v, hmeans⟩
    · rintro ⟨p, v, hmeans⟩
      exact ⟨_, p, v, hmeans, rfl⟩
  · rw [type_eq_of_ok (setProperty_eq_ok_iff.2 ⟨p, v, hmeans, rfl⟩)]
    exact ⟨source_set _ p v, fun q => get_set _ p q v⟩
  · obtain ⟨r, hr, hkeeps, hget, hshown⟩ := typeAll_perm_properties hfinite hperm m
    exact ⟨r, hr, hkeeps.trans hm, hget, hshown⟩

end Needle

end WidgetSkin
