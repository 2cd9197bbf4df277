import WidgetSkin.Proofs.Success
import WidgetSkin.Proofs.Text.Lines
import WidgetSkin.Skin.Compile

/-!
# What the rules of a compilation ask for

Each check succeeds exactly on the data that keep its rule.

## Main statements

* `checkBackground_eq_ok_iff`, `checkMetadata_eq_ok_iff`, `checkSkinName_eq_ok_iff` — the rules
  for the skin as a whole.
* `checkLayer_eq_ok_iff`, `checkLayers_eq_ok_iff` — the rules for layers.
* `validate_eq_ok_iff` — all rules together.
-/

namespace WidgetSkin

@[simp] theorem refuseIf_eq_ok_iff {condition : Bool} {cause : Invalid} {u : Unit} :
    refuseIf condition cause = .ok u ↔ condition = false := by
  cases condition <;> simp [refuseIf]

@[simp] theorem refuseIf_eq_error_iff {condition : Bool} {cause : Invalid} {fault : Fault} :
    refuseIf condition cause = .error fault ↔ condition = true ∧ .invalid cause = fault := by
  cases condition <;> simp [refuseIf]

theorem checkBackground_eq_ok_iff {b : Background} {u : Unit} :
    checkBackground b = .ok u ↔ b.size.isFinite = true ∧ ¬ b.width < 0 ∧ ¬ b.height < 0 := by
  simp [checkBackground, and_assoc]

theorem checkMetadata_eq_ok_iff {m : Metadata} {u : Unit} :
    checkMetadata m = .ok u ↔ ∀ field ∈ m.fields, Text.isSingleLine field.2 = true := by
  simp [checkMetadata, Metadata.fields, bind_eq_ok_iff]

theorem checkSkinName_eq_ok_iff {name : String} {u : Unit} :
    checkSkinName name = .ok u ↔ Path.isSingleName name = true := by
  simp [checkSkinName]

/-- A layer keeps the rules if its name can stand in brackets and its font on one line. -/
theorem checkLayer_eq_ok_iff {layer : LayerSnapshot} {u : Unit} :
    checkLayer layer = .ok u ↔
      isSectionName layer.name = true ∧
      ∀ content, layer.payload = .text content →
        Text.isSingleLine content.fontName = true := by
  simp only [checkLayer, bind_eq_ok_iff, refuseIf_eq_ok_iff]
  cases layer.payload <;> simp

/-- Layers keep the rules if each of them does and their names differ from each other and from
all names before. -/
theorem checkLayers_eq_ok_iff {seen : List String} {layers : List LayerSnapshot} {u : Unit} :
    checkLayers seen layers = .ok u ↔
      (∀ layer ∈ layers, checkLayer layer = .ok ()) ∧
      (layers.map LayerSnapshot.name).Nodup ∧
      ∀ layer ∈ layers, layer.name ∉ seen := by
  induction layers generalizing seen with
  | nil => simp [checkLayers]
  | cons layer layers ih =>
    simp only [checkLayers, bind_eq_ok_iff, refuseIf_eq_ok_iff, ih, exists_const,
      List.contains_eq_mem, decide_eq_false_iff_not, List.map_cons, List.nodup_cons,
      List.mem_cons, List.mem_map, not_or]
    grind

/-- The data keep all rules if background, metadata and the name of the skin do, and the
layers. -/
theorem validate_eq_ok_iff {snapshot : Snapshot} {metadata : Metadata} {settings : Settings}
    {u : Unit} :
    validate snapshot metadata settings = .ok u ↔
      checkBackground snapshot.background = .ok () ∧ checkMetadata metadata = .ok () ∧
      checkSkinName (metadata.directoryName settings) = .ok () ∧
      (∀ layer ∈ snapshot.layers, checkLayer layer = .ok ()) ∧
      (snapshot.layers.map LayerSnapshot.name).Nodup := by
  simp only [validate, bind_eq_ok_iff, checkLayers_eq_ok_iff, List.not_mem_nil,
    not_false_eq_true, implies_true, and_true]
  constructor
  · rintro ⟨_, hbackground, _, hmetadata, _, hname, hlayers⟩
    exact ⟨hbackground, hmetadata, hname, hlayers⟩
  · rintro ⟨hbackground, hmetadata, hname, hlayers⟩
    exact ⟨(), hbackground, (), hmetadata, (), hname, hlayers⟩

/-- A name can stand in brackets if it is not empty and has neither brackets nor line breaks. -/
theorem isSectionName_iff {name : String} :
    isSectionName name = true ↔
      name ≠ "" ∧ ∀ c ∈ ['[', ']', '\n', '\r'], c ∉ name.toList := by
  simp only [isSectionName, Text.isLineEnd, Bool.and_eq_true, Bool.not_eq_true',
    List.any_eq_false, Bool.or_eq_true, beq_iff_eq, List.forall_mem_cons]
  grind [String.isEmpty_iff]

/-- A name that can stand in brackets keeps to one line. -/
theorem isSingleLine_of_isSectionName {name : String} (h : isSectionName name = true) :
    Text.isSingleLine name = true := by
  simp only [isSectionName, Bool.and_eq_true, Bool.not_eq_true', List.any_eq_false] at h
  simp only [Text.isSingleLine, Bool.not_eq_true', List.any_eq_false]
  intro c hc hend
  exact h.2 c hc (by simp [hend])

end WidgetSkin
