import WidgetSkin.Image.Probe
import WidgetSkin.Proofs.Decimal.Whole

/-!
# Sizes in pixels

The size of an image is a whole number of pixels each way, at least one. A box of such a size is
scaled to any box of a positive size by finite factors.

## Main definitions

* `Size.InPixels` — a size that an image can have.

## Main statements

* `inPixels_of_imageSize?` — sizes of image files.
* `Size.InPixels.isFinite_scaleTo` — the factors that take an image to a box.
-/

namespace WidgetSkin

/-! ## Image files -/

/-- A number of pixels, as it fits four bytes. -/
def IsPixelCount (x : Float) : Prop :=
  ∃ n : Nat, x = n.toFloat ∧ 0 < n ∧ n < 2 ^ 32

/-- A size that an image can have. -/
def Size.InPixels (s : Size) : Prop :=
  IsPixelCount s.width ∧ IsPixelCount s.height

namespace Bytes

theorem foldl_lt (bytes : List UInt8) (n : Nat) :
    bytes.foldl (fun n b => n * 256 + b.toNat) n < (n + 1) * 256 ^ bytes.length := by
  induction bytes generalizing n with
  | nil => simp
  | cons b bytes ih =>
    have hbyte := b.toNat_lt
    rw [List.foldl_cons, List.length_cons, Nat.pow_succ', ← Nat.mul_assoc]
    exact (ih _).trans_le (Nat.mul_le_mul_right _ (by omega))

theorem number_lt (bytes : List UInt8) : number bytes < 256 ^ bytes.length := by
  simpa [number] using foldl_lt bytes 0

end Bytes

namespace Png

theorem Chunk.number_lt (c : Chunk) (start : Nat) : c.number start 4 < 2 ^ 32 :=
  calc c.number start 4 < 256 ^ ((c.data.drop start).take 4).length := Bytes.number_lt _
    _ ≤ 256 ^ 4 := Nat.pow_le_pow_right (by decide) (List.length_take_le _ _)

/-- A sound header tells of one pixel at least. -/
theorem dimensions_of_ofChunk? {c : Chunk} {header : Header}
    (h : Header.ofChunk? c = some header) :
    (0 < header.width ∧ header.width < 2 ^ 32) ∧ 0 < header.height ∧ header.height < 2 ^ 32 := by
  simp only [Header.ofChunk?] at h
  split at h
  · next hsound =>
    have hheader := hsound.2.2.2
    cases h
    simp only [Header.isSound, Bool.and_eq_true, bne_iff_ne] at hheader
    obtain ⟨⟨⟨⟨⟨hwidth, hheight⟩, -⟩, -⟩, -⟩, -⟩ := hheader
    exact ⟨⟨Nat.pos_of_ne_zero hwidth, c.number_lt 0⟩, Nat.pos_of_ne_zero hheight, c.number_lt 4⟩
  · cases h

theorem exists_ofChunk?_of_header? {file : ByteArray} {header : Header} {next : Nat}
    (h : header? file = some (header, next)) : ∃ c, Header.ofChunk? c = some header := by
  obtain ⟨_, -, h⟩ := Option.bind_eq_some_iff.1 h
  split at h
  · cases h
  · obtain ⟨c, -, h⟩ := Option.bind_eq_some_iff.1 h
    obtain ⟨_, hheader, h⟩ := Option.bind_eq_some_iff.1 h
    cases h
    exact ⟨c, hheader⟩

theorem dimensions_pos {file : ByteArray} {width height : Nat}
    (h : dimensions? file = some (width, height)) :
    (0 < width ∧ width < 2 ^ 32) ∧ 0 < height ∧ height < 2 ^ 32 := by
  obtain ⟨⟨header, next⟩, hheader, h⟩ := Option.bind_eq_some_iff.1 h
  obtain ⟨c, hc⟩ := exists_ofChunk?_of_header? hheader
  obtain ⟨_, -, h⟩ := Option.bind_eq_some_iff.1 h
  split at h
  · cases h
    exact dimensions_of_ofChunk? hc
  · cases h

end Png

/-- An image file has a size in pixels. -/
theorem inPixels_of_imageSize? {files : FileTree} {path : String} {size : Size}
    (h : imageSize? files path = some size) : size.InPixels := by
  obtain ⟨content, -, h⟩ := Option.bind_eq_some_iff.1 h
  split at h
  · obtain ⟨⟨width, height⟩, hdimensions, h⟩ := Option.bind_eq_some_iff.1 h
    cases h
    obtain ⟨hwidth, hheight⟩ := Png.dimensions_pos hdimensions
    exact ⟨⟨width, rfl, hwidth⟩, height, rfl, hheight⟩
  · cases h

/-! ## Scaling -/

namespace IsPixelCount

variable {x y : Float}

theorem isFinite (h : IsPixelCount x) : x.isFinite = true := by
  obtain ⟨n, rfl, hpos, hlt⟩ := h
  obtain ⟨b, hb, -⟩ := Decimal.isPositive_toFloat hpos (hlt.trans (by decide))
  exact hb.isFinite

theorem zero_lt (h : IsPixelCount x) : 0 < x := by
  obtain ⟨n, rfl, hpos, hlt⟩ := h
  obtain ⟨b, hb, -⟩ := Decimal.isPositive_toFloat hpos (hlt.trans (by decide))
  exact hb.zero_lt

theorem isFinite_div (h : IsPixelCount x) (hfinite : y.isFinite = true) (hpos : ¬ y ≤ 0) :
    (y / x).isFinite = true := by
  obtain ⟨n, rfl, hn, hlt⟩ := h
  exact Decimal.isFinite_div_toFloat hfinite hpos hn (hlt.trans (by decide))

end IsPixelCount

namespace Size.InPixels

variable {s target : Size}

theorem isPositive (h : s.InPixels) : s.isPositive = true := by
  simp [Size.isPositive, h.1.zero_lt, h.2.zero_lt]

/-- The factors that take an image to a box of a positive size are finite. -/
theorem isFinite_scaleTo (h : s.InPixels) (hfinite : target.isFinite = true)
    (hwidth : ¬ target.width ≤ 0) (hheight : ¬ target.height ≤ 0) :
    (s.scaleTo target).x.isFinite = true ∧ (s.scaleTo target).y.isFinite = true := by
  obtain ⟨hw, hh⟩ := Bool.and_eq_true_iff.1 hfinite
  exact ⟨h.1.isFinite_div hw hwidth, h.2.isFinite_div hh hheight⟩

end Size.InPixels

end WidgetSkin
