import WidgetSkin.Proofs.Skin.Names

/-!
# Names that editors give

An editor names a new layer with the word for its kind and a number. Such names are told apart by
both, and they fit into a skin file: they can stand in brackets and are not taken for any other
section.

## Main definitions

* `LayerKind.nthName` — the name of the `n`-th layer of a kind.

## Main statements

* `LayerKind.nthName_inj` — different layers have different names.
* `LayerKind.isSectionName_nthName` — the names can stand in brackets.
* `LayerKind.nthName_not_mem_headerNames`, `LayerKind.nthName_ne_measureName`,
  `LayerKind.nthName_ne_append` — the names of no other sections.
-/

namespace WidgetSkin

namespace LayerKind

/-- The name of the `n`-th layer of a kind. -/
def nthName (kind : LayerKind) (n : Nat) : String :=
  kind.label ++ toString n

theorem toList_nthName (kind : LayerKind) (n : Nat) :
    (kind.nthName n).toList = kind.label.toList ++ n.repr.toList :=
  String.toList_append

theorem head?_nthName (kind : LayerKind) (n : Nat) :
    (kind.nthName n).toList.head? = kind.label.toList.head? := by
  have hlabel : kind.label.toList ≠ [] := by cases kind <;> decide
  rw [toList_nthName, List.head?_append_of_ne_nil _ hlabel]

/-- A name ends in a digit. -/
theorem exists_getLast?_nthName (kind : LayerKind) (n : Nat) :
    ∃ c, (kind.nthName n).toList.getLast? = some c ∧ c.isDigit = true := by
  have hdigits : n.repr.toList ≠ [] := by
    simp [Nat.repr]
  obtain ⟨c, hc⟩ := Option.isSome_iff_exists.1 (List.getLast?_isSome.2 hdigits)
  refine ⟨c, ?_, Text.isDigit_of_mem_repr (List.mem_of_getLast? hc)⟩
  rw [toList_nthName, List.getLast?_append, hc, Option.some_or]

/-- The words for kinds begin with different letters, so that names are told apart by kind and by
number. -/
theorem nthName_inj {kind kind' : LayerKind} {m n : Nat} :
    kind.nthName m = kind'.nthName n ↔ kind = kind' ∧ m = n := by
  refine ⟨fun h => ?_, fun ⟨hkind, hn⟩ => hkind ▸ hn ▸ rfl⟩
  have hhead : kind.label.toList.head? = kind'.label.toList.head? := by
    rw [← kind.head?_nthName m, h, kind'.head?_nthName n]
  have hkind : kind = kind' := by
    revert hhead
    cases kind <;> cases kind' <;> decide
  subst hkind
  exact ⟨rfl, Text.eq_of_repr_eq ((String.append_right_inj kind.label).1 h)⟩

/-! ## Names in a skin file -/

theorem isSectionName_nthName (kind : LayerKind) (n : Nat) :
    isSectionName (kind.nthName n) = true := by
  rw [isSectionName_iff]
  refine ⟨fun hempty => ?_, fun c hc hmem => ?_⟩
  · obtain ⟨c, hlast, -⟩ := kind.exists_getLast?_nthName n
    simp [hempty] at hlast
  · rw [toList_nthName, List.mem_append] at hmem
    rcases hmem with hlabel | hdigit
    · have hplain : (kind.label.toList.all fun c => c ∉ ['[', ']', '\n', '\r']) = true := by
        cases kind <;> decide
      exact of_decide_eq_true (List.all_eq_true.1 hplain c hlabel) hc
    · have hno : (['[', ']', '\n', '\r'].all fun c => !c.isDigit) = true := by decide
      have hnodigit := List.all_eq_true.1 hno c hc
      rw [Text.isDigit_of_mem_repr hdigit] at hnodigit
      cases hnodigit

theorem nthName_ne_append (kind : LayerKind) (n : Nat) (name : String) {suffix : String}
    (hsuffix : suffix ∈ ["Total", "Used"]) : kind.nthName n ≠ name ++ suffix := by
  intro h
  obtain ⟨c, hlast, hdigit⟩ := kind.exists_getLast?_nthName n
  have hletter : ∀ suffix ∈ ["Total", "Used"],
      (suffix.toList.getLast?.any fun c => !c.isDigit) = true := by
    decide
  obtain ⟨d, hd, hnodigit⟩ := (Option.any_eq_true ..).1 (hletter suffix hsuffix)
  rw [h, String.toList_append, List.getLast?_append, hd, Option.some_or, Option.some_inj] at hlast
  rw [hlast, hdigit] at hnodigit
  cases hnodigit

theorem nthName_not_mem_headerNames (kind : LayerKind) (n : Nat) :
    kind.nthName n ∉ headerNames := by
  intro h
  obtain ⟨c, hlast, hdigit⟩ := kind.exists_getLast?_nthName n
  have hletter : ∀ name ∈ headerNames, (name.toList.getLast?.any Char.isDigit) = false := by
    decide
  have hnodigit := hletter _ h
  rw [hlast, Option.any_some, hdigit] at hnodigit
  cases hnodigit

/-- A name does not begin like that of a measure. -/
theorem nthName_ne_measureName (kind : LayerKind) (n : Nat) (name suffix : String) :
    kind.nthName n ≠ measureName name ++ suffix := by
  intro h
  have hhead := congrArg (fun s : String => s.toList.head?) h
  simp only [head?_nthName, measureName, String.toList_append] at hhead
  revert hhead
  cases kind <;> simp [label]

end LayerKind

end WidgetSkin
