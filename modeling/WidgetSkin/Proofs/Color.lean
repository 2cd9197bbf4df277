import WidgetSkin.Color
import WidgetSkin.Proofs.Decimal.Format
import WidgetSkin.Proofs.Decimal.Order
import WidgetSkin.Proofs.Decimal.Whole
import WidgetSkin.Proofs.Text.Blank

/-!
# Spellings of colours

A text is a colour if it is a spelling of one: three pairs of hexadecimal digits, or three digits
that are doubled, behind at most one hash and between blanks. What is written for a text and an
opacity is always four numbers from 0 to 255, whether the text is a spelling or not. A parser that
cuts the text at byte offsets gives the same colours, and no cut of it fails.

## Main definitions

* `Rgb.Spells` — the spellings of a colour.
* `Rgb.ofSlices?` — the parser with byte offsets.

## Main statements

* `Rgb.ofHex?_eq_some_iff` — the texts that are read as a colour.
* `Rgb.run_ofSlices?` — the parser with byte offsets agrees.
* `encodeColor_wellFormed` — what is written for any text and any opacity.
-/

namespace WidgetSkin

namespace Rgb

/-! ## Hexadecimal digits -/

/-- The character is the digit `v` in lower or in upper case. -/
def WritesDigit (c : Char) (v : Fin 16) : Prop :=
  "0123456789abcdef".toList[v.val]? = some c ∨ "0123456789ABCDEF".toList[v.val]? = some c

instance (c : Char) (v : Fin 16) : Decidable (WritesDigit c v) :=
  inferInstanceAs (Decidable (_ ∨ _))

theorem lt_of_hexDigit?_eq_some {c : Char} {v : Fin 16} (h : hexDigit? c = some v) :
    c.toNat < 128 := by
  have hle : ∀ d : Char, c ≤ d → c.toNat ≤ d.toNat := fun d hd => by
    simpa [Char.le_def, UInt32.le_iff_toNat_le] using hd
  simp only [hexDigit?] at h
  split at h
  · next hrange => exact (hle _ hrange.2).trans_lt (by decide)
  · split at h
    · next hrange => exact (hle _ hrange.2).trans_lt (by decide)
    · split at h
      · next hrange => exact (hle _ hrange.2).trans_lt (by decide)
      · cases h

theorem hexDigit?_eq_some_iff {c : Char} {v : Fin 16} :
    hexDigit? c = some v ↔ WritesDigit c v := by
  constructor
  · intro h
    have hascii : ∀ k : Fin 128, ∀ v, hexDigit? (.ofNat k) = some v → WritesDigit (.ofNat k) v := by
      decide +kernel
    have hc := hascii ⟨c.toNat, lt_of_hexDigit?_eq_some h⟩ v
    rw [Char.ofNat_toNat] at hc
    exact hc h
  · have hlower : ∀ v : Fin 16, "0123456789abcdef".toList[v.val]?.bind hexDigit? = some v := by
      decide
    have hupper : ∀ v : Fin 16, "0123456789ABCDEF".toList[v.val]?.bind hexDigit? = some v := by
      decide
    rintro (h | h)
    · have hread := hlower v
      rwa [h, Option.bind_some] at hread
    · have hread := hupper v
      rwa [h, Option.bind_some] at hread

theorem mapM_hexDigit?_eq_some_iff {cs : List Char} {vs : List (Fin 16)} :
    cs.mapM hexDigit? = some vs ↔ List.Forall₂ WritesDigit cs vs := by
  induction cs generalizing vs with
  | nil => cases vs <;> simp
  | cons c cs ih =>
    cases vs <;> simp [List.mapM_cons, hexDigit?_eq_some_iff, ih, Option.bind_eq_some_iff]

/-! ## Spellings -/

/-- The channels written with hexadecimal digits: three pairs, or three digits that are doubled. -/
inductive Channels : List (Fin 16) → Rgb → Prop
  | pairs (a b c d e f : Fin 16) :
    Channels [a, b, c, d, e, f] ⟨channel a b, channel c d, channel e f⟩
  | doubled (a b c : Fin 16) : Channels [a, b, c] ⟨channel a a, channel b b, channel c c⟩

/-- The text is a spelling of the colour. -/
def Spells (s : String) (color : Rgb) : Prop :=
  ∃ before hash digits after vs, s.toList = before ++ (hash ++ digits) ++ after ∧
    (∀ c ∈ before, Text.isBlank c = true) ∧ (∀ c ∈ after, Text.isBlank c = true) ∧
    (hash = [] ∨ hash = ['#']) ∧ List.Forall₂ WritesDigit digits vs ∧ Channels vs color

theorem ofDigits?_eq_some_iff {cs : List Char} {color : Rgb} :
    ofDigits? cs = some color ↔ ∃ vs, List.Forall₂ WritesDigit cs vs ∧ Channels vs color := by
  constructor
  · intro h
    simp only [ofDigits?] at h
    split at h
    · next hvs =>
      cases h
      exact ⟨_, mapM_hexDigit?_eq_some_iff.1 hvs, .pairs ..⟩
    · next hvs =>
      cases h
      exact ⟨_, mapM_hexDigit?_eq_some_iff.1 hvs, .doubled ..⟩
    · cases h
  · rintro ⟨vs, hvs, hcolor⟩
    rw [ofDigits?, mapM_hexDigit?_eq_some_iff.2 hvs]
    cases hcolor <;> rfl

/-- What holds of the twenty-two characters holds of a digit. -/
theorem WritesDigit.of_all {p : Char → Bool} (hp : "0123456789abcdefABCDEF".toList.all p = true)
    {c : Char} {v : Fin 16} (h : WritesDigit c v) : p c = true := by
  rw [List.all_eq_true] at hp
  rcases h with h | h
  · exact hp c ((by decide : "0123456789abcdef".toList ⊆ _) (List.mem_of_getElem? h))
  · exact hp c ((by decide : "0123456789ABCDEF".toList ⊆ _) (List.mem_of_getElem? h))

theorem WritesDigit.ne_hash_not_blank {c : Char} {v : Fin 16} (h : WritesDigit c v) :
    c ≠ '#' ∧ Text.isBlank c = false := by
  simpa using h.of_all (p := fun c => c != '#' && !Text.isBlank c) (by decide)

theorem ne_hash_not_blank_of_mem {cs : List Char} {vs : List (Fin 16)}
    (h : List.Forall₂ WritesDigit cs vs) : ∀ c ∈ cs, c ≠ '#' ∧ Text.isBlank c = false := by
  induction h with
  | nil => simp
  | cons hc _ ih => exact List.forall_mem_cons.2 ⟨hc.ne_hash_not_blank, ih⟩

/-- The two digits of a channel. -/
def channelDigits (n : Fin 256) : Fin 16 × Fin 16 :=
  (⟨n / 16, Nat.div_lt_of_lt_mul n.isLt⟩, ⟨n % 16, Nat.mod_lt _ (by decide)⟩)

theorem channel_channelDigits (n : Fin 256) :
    channel (channelDigits n).1 (channelDigits n).2 = n :=
  Fin.ext (Nat.div_add_mod n.val 16)

/-- The six digits of a colour. -/
def digits (color : Rgb) : List (Fin 16) :=
  [color.red, color.green, color.blue].flatMap fun n => [(channelDigits n).1, (channelDigits n).2]

theorem channels_digits (color : Rgb) : Channels color.digits color := by
  obtain ⟨red, green, blue⟩ := color
  have hpairs := Channels.pairs (channelDigits red).1 (channelDigits red).2
    (channelDigits green).1 (channelDigits green).2 (channelDigits blue).1 (channelDigits blue).2
  rwa [channel_channelDigits, channel_channelDigits, channel_channelDigits] at hpairs

theorem exists_dropHash_append (cs : List Char) :
    ∃ hash, cs = hash ++ dropHash cs ∧ (hash = [] ∨ hash = ['#']) := by
  unfold dropHash
  split
  · exact ⟨['#'], rfl, .inr rfl⟩
  · exact ⟨[], rfl, .inl rfl⟩

/-- The texts that are read as a colour. -/
theorem ofHex?_eq_some_iff {s : String} {color : Rgb} :
    ofHex? s = some color ↔ Spells s color := by
  constructor
  · intro h
    obtain ⟨before, after, htext, hbefore, hafter, -, -⟩ :=
      Text.trim_eq_iff.1 (Eq.refl (Text.trim s.toList))
    obtain ⟨hash, hkept, hhash⟩ := exists_dropHash_append (Text.trim s.toList)
    obtain ⟨vs, hvs, hcolor⟩ := ofDigits?_eq_some_iff.1 h
    rw [hkept] at htext
    exact ⟨before, hash, _, after, vs, htext, hbefore, hafter, hhash, hvs, hcolor⟩
  · rintro ⟨before, hash, digits, after, vs, htext, hbefore, hafter, hhash, hvs, hcolor⟩
    have hdigits := ne_hash_not_blank_of_mem hvs
    have hinner : ∀ c ∈ hash ++ digits, Text.isBlank c = false := by
      rw [List.forall_mem_append]
      refine ⟨?_, fun c hc => (hdigits c hc).2⟩
      rcases hhash with rfl | rfl
      · exact List.forall_mem_nil _
      · exact List.forall_mem_singleton.2 (by decide)
    have htrim : Text.trim s.toList = hash ++ digits :=
      Text.trim_eq_iff.2 ⟨before, after, htext, hbefore, hafter,
        fun c hc => hinner c (List.mem_of_head? hc), fun c hc => hinner c (List.mem_of_getLast? hc)⟩
    have hdrop : dropHash (hash ++ digits) = digits := by
      rcases hhash with rfl | rfl
      · unfold dropHash
        split
        · next heq =>
          rw [List.nil_append] at heq
          exact absurd rfl (hdigits '#' (heq ▸ List.mem_cons_self)).1
        · rfl
      · rfl
    rw [ofHex?, htrim, hdrop]
    exact ofDigits?_eq_some_iff.2 ⟨vs, hvs, hcolor⟩

/-! ## Byte offsets -/

/-- The text behind its first `n` bytes, unless these end inside of a character or lie beyond the
end. -/
def dropBytes? : (cs : List Char) → (n : Nat) → Option (List Char)
  | cs, 0 => some cs
  | [], _ + 1 => none
  | c :: cs, n + 1 => if c.utf8Size ≤ n + 1 then dropBytes? cs (n + 1 - c.utf8Size) else none

/-- The first `n` bytes of a text, unless these end inside of a character or lie beyond the end. -/
def takeBytes? : (cs : List Char) → (n : Nat) → Option (List Char)
  | _, 0 => some []
  | [], _ + 1 => none
  | c :: cs, n + 1 =>
    if c.utf8Size ≤ n + 1 then (takeBytes? cs (n + 1 - c.utf8Size)).map (c :: ·) else none

/-- The text between two byte offsets, unless one of them is no place between characters. -/
def slice? (cs : List Char) (start stop : Nat) : Option (List Char) := do
  let rest ← dropBytes? cs start
  takeBytes? rest (stop - start)

/-- How many bytes a text takes. -/
def byteLength (cs : List Char) : Nat :=
  (cs.map Char.utf8Size).sum

/-- The number below 256 of a text in hexadecimal digits; there is at least one, and a plus sign may
stand in front. -/
def readByte? (cs : List Char) : Option (Fin 256) := do
  let digits :=
    match cs with
    | '+' :: cs => cs
    | cs => cs
  if digits.isEmpty then none
  else
    let vs ← digits.mapM hexDigit?
    let n := vs.foldl (fun n v => 16 * n + v.val) 0
    if h : n < 256 then some ⟨n, h⟩ else none

/-- The number between two byte offsets. The outer level of the result is the cut, the inner level
the number. -/
def sliceByte? (cs : List Char) (start stop : Nat) : OptionT Option (Fin 256) :=
  .mk ((slice? cs start stop).map readByte?)

/-- The parser of a text without its hash that cuts the pairs of digits at byte offsets. -/
def ofSlices? (cs : List Char) : OptionT Option Rgb :=
  if cs.all fun c => (hexDigit? c).isSome then
    match byteLength cs with
    | 6 => do
      let red ← sliceByte? cs 0 2
      let green ← sliceByte? cs 2 4
      let blue ← sliceByte? cs 4 6
      return ⟨red, green, blue⟩
    | 3 =>
      match cs.mapM hexDigit? with
      | some [a, b, c] => return ⟨channel a a, channel b b, channel c c⟩
      | _ => failure
    | _ => failure
  else failure

section Slices

variable {cs : List Char} {vs : List (Fin 16)}

theorem WritesDigit.utf8Size_eq {c : Char} {v : Fin 16} (h : WritesDigit c v) : c.utf8Size = 1 := by
  simpa using h.of_all (p := (·.utf8Size == 1)) (by decide)

theorem WritesDigit.ne_plus {c : Char} {v : Fin 16} (h : WritesDigit c v) : c ≠ '+' := by
  simpa using h.of_all (p := (· != '+')) (by decide)

theorem byteLength_eq (h : List.Forall₂ WritesDigit cs vs) : byteLength cs = cs.length := by
  induction h with
  | nil => rfl
  | cons hc _ ih => simp [byteLength] at ih ⊢; rw [ih, hc.utf8Size_eq, Nat.add_comm]

theorem readByte?_pair {c d : Char} {v w : Fin 16} (hc : WritesDigit c v) (hd : WritesDigit d w) :
    readByte? [c, d] = some (channel v w) := by
  have hdigits : [c, d].mapM hexDigit? = some [v, w] :=
    mapM_hexDigit?_eq_some_iff.2 (.cons hc (.cons hd .nil))
  have hlt : 16 * v.val + w.val < 256 := by omega
  have hplus : (match [c, d] with
      | '+' :: cs => cs
      | cs => cs) = [c, d] := by
    split
    · next heq => exact absurd (List.cons.inj heq).1 hc.ne_plus
    · rfl
  simp only [readByte?]
  rw [hplus, hdigits]
  simp [channel, hlt]

/-- Each pair of six digits is cut out and read. -/
theorem sliceByte?_pairs {a b c d e f : Char} {va vb vc vd ve vf : Fin 16}
    (h : List.Forall₂ WritesDigit [a, b, c, d, e, f] [va, vb, vc, vd, ve, vf]) :
    sliceByte? [a, b, c, d, e, f] 0 2 = pure (channel va vb) ∧
      sliceByte? [a, b, c, d, e, f] 2 4 = pure (channel vc vd) ∧
      sliceByte? [a, b, c, d, e, f] 4 6 = pure (channel ve vf) := by
  simp only [List.forall₂_cons] at h
  obtain ⟨ha, hb, hc, hd, he, hf, -⟩ := h
  have hred := readByte?_pair ha hb
  have hgreen := readByte?_pair hc hd
  have hblue := readByte?_pair he hf
  refine ⟨?_, ?_, ?_⟩ <;>
    simp [sliceByte?, slice?, dropBytes?, takeBytes?, ha.utf8Size_eq, hb.utf8Size_eq,
      hc.utf8Size_eq, hd.utf8Size_eq, he.utf8Size_eq, hf.utf8Size_eq, hred, hgreen, hblue] <;> rfl

theorem isSome_mapM_hexDigit? (cs : List Char) :
    (cs.mapM hexDigit?).isSome = cs.all fun c => (hexDigit? c).isSome := by
  induction cs with
  | nil => rfl
  | cons c cs ih =>
    rw [List.mapM_cons, List.all_cons, ← ih]
    cases hexDigit? c <;> cases cs.mapM hexDigit? <;> rfl

/-- No cut fails, and the colour is the same. -/
theorem run_ofSlices? (cs : List Char) : (ofSlices? cs).run = some (ofDigits? cs) := by
  have hall := isSome_mapM_hexDigit? cs
  rw [ofSlices?, ofDigits?, ← hall]
  cases hdigits : cs.mapM hexDigit? with
  | none => rfl
  | some vs =>
    have hvs := mapM_hexDigit?_eq_some_iff.1 hdigits
    have hlength := hvs.length_eq
    rw [Option.isSome_some, if_pos rfl, byteLength_eq hvs]
    split
    · next hsix =>
      match cs, vs, hvs, hsix, hlength with
      | [a, b, c, d, e, f], [va, vb, vc, vd, ve, vf], hvs, _, _ =>
        obtain ⟨hred, hgreen, hblue⟩ := sliceByte?_pairs hvs
        rw [hred, hgreen, hblue]
        rfl
    · next hthree =>
      rw [hthree] at hlength
      match vs, hlength with
      | [va, vb, vc], _ => rfl
    · next hsix hthree =>
      rw [hlength] at hsix hthree
      split
      · next heq =>
        cases heq
        exact (hsix rfl).elim
      · next heq =>
        cases heq
        exact (hthree rfl).elim
      · rfl

end Slices

end Rgb

/-! ## Opacities -/

section Opacity

open Decimal

variable {x : Float}

theorem alpha_of_beq_zero (h : (x == 0) = true) : alpha x = 0 := by
  have hzero : ∀ negative, alpha (ofMagnitude negative 0) = 0 := by decide +kernel
  rw [beq_zero_iff] at h
  rw [← ofMagnitude_magnitude x, h]
  exact hzero _

theorem alpha_of_lt_zero (h : x < 0) : alpha x = 0 := by
  rw [alpha, clampUnit, if_pos h]
  decide +kernel

theorem alpha_of_le_zero (h : x ≤ 0) : alpha x = 0 := by
  rcases (le_iff_lt_or_beq x 0).1 h with hlt | hzero
  · exact alpha_of_lt_zero hlt
  · exact alpha_of_beq_zero hzero

theorem alpha_of_one_lt (hpos : ¬ x < 0) (h : 1 < x) : alpha x = 255 := by
  rw [alpha, clampUnit, if_neg hpos, if_pos h]
  decide

/-- The magnitude of one. -/
def oneMagnitude : Nat := 1023 * leadingBit

theorem ofMagnitude_one : ofMagnitude false oneMagnitude = 1 := by decide

theorem isPositive_greatestChannel : ∃ b, IsPositive 255 b ∧ b.value = (255 : Nat) := by
  have hchannel : ofMagnitude false (nearestMagnitude 255 1) = 255 := by decide
  have hpositive := Scaled.isPositive_nearestMagnitude (n := 255) (by decide) (by decide)
  rwa [hchannel] at hpositive

/-- A finite double above zero, by its magnitude. -/
theorem exists_magnitude (hfinite : x.isFinite = true) (h : ¬ x ≤ 0) :
    ∃ m, m ≠ 0 ∧ m < infiniteMagnitude ∧ x = ofMagnitude false m := by
  obtain ⟨m, hm, rfl⟩ := isUnsigned_of_pos hfinite h
  refine ⟨m, fun hzero => h ?_, hm, rfl⟩
  rw [hzero]
  decide

theorem alpha_of_one_le (hfinite : x.isFinite = true) (h : 1 ≤ x) : alpha x = 255 := by
  have hone := isPositive_of_ne_zero (m := oneMagnitude) (by decide) (by decide)
  rw [ofMagnitude_one] at hone
  have hpos := hone.not_le_zero_of_le h
  by_cases hlt : 1 < x
  · exact alpha_of_one_lt (fun hneg => hpos ((le_iff_lt_or_beq x 0).2 (.inl hneg))) hlt
  · obtain ⟨m, hzero, hm, rfl⟩ := exists_magnitude hfinite hpos
    rw [← ofMagnitude_one, ofMagnitude_le_iff (by decide) (by decide) hzero hm] at h
    rw [← ofMagnitude_one, ofMagnitude_lt_iff (by decide) (by decide) hzero hm] at hlt
    obtain rfl : oneMagnitude = m := by omega
    decide

/-- The opacity between zero and one is a channel. -/
theorem alpha_le_of_magnitude {m : Nat} (hzero : m ≠ 0) (hm : m ≤ oneMagnitude) :
    (Binary.ofMagnitude (magnitude (ofMagnitude false m * 255))).roundHalfUp ≤ 255 := by
  have hfinite : m < infiniteMagnitude := hm.trans_lt (by decide)
  have hx := isPositive_of_ne_zero hzero hfinite
  obtain ⟨c, hc, hvalue⟩ := isPositive_greatestChannel
  obtain ⟨num, den, hnum, hden, hproduct⟩ :=
    exists_fraction (mul_pos (Binary.value_pos hx.pos) (Binary.value_pos hc.pos))
  have hone : (Binary.ofMagnitude m).value ≤ 1 := by
    have hle := Binary.value_le_value (Binary.canonical_ofMagnitude m)
      (Binary.canonical_ofMagnitude oneMagnitude) (by
        rwa [Binary.toMagnitude_ofMagnitude, Binary.toMagnitude_ofMagnitude])
    have hparts : Binary.ofMagnitude oneMagnitude = ⟨2 ^ 52, -52⟩ := by decide
    refine hle.trans_eq ?_
    rw [hparts, Binary.value]
    norm_num
  have hproduct_le : (num : ℚ) / den ≤ c.value := by
    rw [hproduct]
    exact mul_le_of_le_one_left (Binary.value_pos hc.pos).le hone
  have hgreatest : (num : ℚ) / den ≤ greatest :=
    calc (num : ℚ) / den ≤ (255 : Nat) := hproduct_le.trans_eq hvalue
      _ ≤ 2 ^ (8 : ℤ) := by norm_num
      _ ≤ greatest := two_zpow_le_greatest (by decide)
  have hmagnitude := nearestMagnitude_le hc.canonical hnum hden hproduct_le
  rw [hx.mul_eq hc hnum hden hproduct,
    magnitude_ofMagnitude false (nearestMagnitude_lt hnum hden hgreatest)]
  refine Binary.roundHalfUp_le (le_of_le_of_eq ?_ hvalue)
  refine Binary.value_le_value (Binary.canonical_ofMagnitude _) hc.canonical ?_
  rwa [Binary.toMagnitude_ofMagnitude]

theorem alpha_le (hfinite : x.isFinite = true) : alpha x ≤ 255 := by
  by_cases hpos : x ≤ 0
  · rw [alpha_of_le_zero hpos]
    omega
  · have hneg : ¬ x < 0 := fun h => hpos ((le_iff_lt_or_beq x 0).2 (.inl h))
    by_cases hlt : 1 < x
    · exact (alpha_of_one_lt hneg hlt).le
    · rw [alpha, clampUnit, if_neg hneg, if_neg hlt]
      obtain ⟨m, hzero, hm, rfl⟩ := exists_magnitude hfinite hpos
      rw [← ofMagnitude_one, ofMagnitude_lt_iff (by decide) (by decide) hzero hm] at hlt
      exact alpha_le_of_magnitude hzero (Nat.le_of_not_lt hlt)

end Opacity

/-! ## Encoded colours -/

section Encoded

/-- The text of four channels. -/
def channelText (red green blue alpha : Fin 256) : String :=
  ",".intercalate ([red, green, blue, alpha].map (toString ·.val))

theorem toString_mem_wholeNumber (n : Nat) :
    (toString n).toList ∈ Decimal.wholeNumber.matches' := by
  rw [Nat.toString_eq_ofList_toDigits, String.toList_ofList]
  exact Decimal.toDigits_mem_wholeNumber n

theorem encodeColor_of_spells {s : String} {color : Rgb} {opacity : Float}
    (h : Rgb.Spells s color) (hfinite : opacity.isFinite = true) :
    encodeColor s opacity =
      channelText color.red color.green color.blue ⟨alpha opacity,
        Nat.lt_succ_of_le (alpha_le hfinite)⟩ := by
  rw [encodeColor, Rgb.ofHex?_eq_some_iff.2 h]
  simp only [hfinite, if_true]
  rfl

theorem encodeColor_of_not_spells {s : String} {opacity : Float}
    (h : ¬ (opacity.isFinite = true ∧ ∃ color, Rgb.Spells s color)) :
    encodeColor s opacity = channelText 0 0 0 255 := by
  rw [encodeColor]
  split
  · next color hcolor =>
    rw [if_neg fun hfinite => h ⟨hfinite, color, Rgb.ofHex?_eq_some_iff.1 hcolor⟩]
    decide
  · decide

/-- Whatever is written for a text and an opacity are four channels. -/
theorem exists_encodeColor_eq (s : String) (opacity : Float) :
    ∃ red green blue alpha, encodeColor s opacity = channelText red green blue alpha := by
  by_cases h : opacity.isFinite = true ∧ ∃ color, Rgb.Spells s color
  · obtain ⟨hfinite, color, hcolor⟩ := h
    exact ⟨_, _, _, _, encodeColor_of_spells hcolor hfinite⟩
  · exact ⟨_, _, _, _, encodeColor_of_not_spells h⟩

/-- A text is read as a colour exactly if it is a spelling of it, which the six digits of the colour
are in letters of any case, and a parser that cuts the text at byte offsets gives the same without a
cut that fails. What is written for a text and an opacity is four whole numbers from 0 to 255: the
channels of the colour and the opacity as a channel if the text is a spelling and the opacity
finite, opaque black otherwise. -/
theorem encodeColor_wellFormed (s : String) (opacity : Float) :
    (∃ red green blue alpha : Fin 256, encodeColor s opacity = channelText red green blue alpha ∧
      ∀ n ∈ [red, green, blue, alpha], (toString n.val).toList ∈ Decimal.wholeNumber.matches') ∧
    (∀ color, Rgb.Spells s color → opacity.isFinite = true → ∃ alpha : Fin 256,
      encodeColor s opacity = channelText color.red color.green color.blue alpha ∧
      (opacity ≤ 0 → alpha = 0) ∧ (1 ≤ opacity → alpha = 255)) ∧
    (¬ (opacity.isFinite = true ∧ ∃ color, Rgb.Spells s color) →
      encodeColor s opacity = "0,0,0,255") ∧
    (∀ color, Rgb.ofHex? s = some color ↔ Rgb.Spells s color) ∧
    (Rgb.ofSlices? (Rgb.dropHash (Text.trim s.toList))).run = some (Rgb.ofHex? s) ∧
    ∀ color before digits after, s.toList = before ++ '#' :: digits ++ after →
      (∀ c ∈ before, Text.isBlank c = true) → (∀ c ∈ after, Text.isBlank c = true) →
      List.Forall₂ Rgb.WritesDigit digits color.digits → Rgb.ofHex? s = some color := by
  have hnumber : ∀ ns : List (Fin 256), ∀ n ∈ ns,
      (toString n.val).toList ∈ Decimal.wholeNumber.matches' :=
    fun _ n _ => toString_mem_wholeNumber n.val
  refine ⟨?_, fun color hcolor hfinite => ?_, fun h => ?_, fun color => Rgb.ofHex?_eq_some_iff,
    Rgb.run_ofSlices? _, fun color before digits after htext hbefore hafter hdigits => ?_⟩
  · obtain ⟨red, green, blue, alpha, h⟩ := exists_encodeColor_eq s opacity
    exact ⟨red, green, blue, alpha, h, hnumber _⟩
  · exact ⟨_, encodeColor_of_spells hcolor hfinite, fun hzero => Fin.ext (alpha_of_le_zero hzero),
      fun hone => Fin.ext (alpha_of_one_le hfinite hone)⟩
  · rw [encodeColor_of_not_spells h]
    decide
  · exact Rgb.ofHex?_eq_some_iff.2 ⟨before, ['#'], digits, after, color.digits, htext, hbefore,
      hafter, .inr rfl, hdigits, color.channels_digits⟩

end Encoded

end WidgetSkin
