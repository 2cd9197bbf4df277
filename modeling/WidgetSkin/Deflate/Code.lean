import WidgetSkin.Deflate.Bits

/-!
# Prefix codes

A prefix code is a tree: every bit goes down one branch, and the symbol stands at the end. A
code is given by the lengths of the codes of its symbols alone: read from left to right, codes
of equal length belong to ascending symbols, and shorter codes come before longer ones.

## Main definitions

* `Code` — the codes.
* `Code.ofLengths` — the code with given lengths.
* `Code.decode` — the symbol in front of a row of bits.
* `Code.full?`, `Code.sparse?` — the codes that a compressed text may use.
-/

namespace WidgetSkin.Deflate

/-- A prefix code, or what is left of one behind some bits. -/
inductive Code where
  /-- Nothing has a code that begins here. -/
  | missing
  /-- The code of a symbol ends here. -/
  | symbol (n : Nat)
  /-- One more bit decides. -/
  | branch (zero one : Code)
deriving DecidableEq

namespace Code

/-- The greatest length of a code. -/
def greatestLength : Nat := 15

/-- The symbols that have a code, each behind the length of its code: shorter codes first, then
lower symbols. -/
def ordered (lengths : List Nat) : List (Nat × Nat) :=
  (List.range greatestLength).flatMap fun k => lengths.zipIdx.filter fun entry => entry.1 == k + 1

/-- The code behind `depth` bits that takes the first of `symbols`, and the symbols that it
leaves; at most `room` more bits follow. -/
def fill (room depth : Nat) (symbols : List (Nat × Nat)) : Code × List (Nat × Nat) :=
  match symbols with
  | [] => (missing, [])
  | (length, n) :: later =>
    if length ≤ depth then (symbol n, later)
    else
      match room with
      | 0 => (missing, symbols)
      | room + 1 =>
        let (zero, symbols) := fill room (depth + 1) symbols
        let (one, symbols) := fill room (depth + 1) symbols
        (branch zero one, symbols)

/-- The code with given lengths, where zero stands for a symbol without a code, and the symbols
for which there is no place in it. -/
def ofLengths (lengths : List Nat) : Code × List (Nat × Nat) :=
  fill greatestLength 0 (ordered lengths)

/-- Whether every row of bits leads to a symbol. -/
def isFull : Code → Bool
  | missing => false
  | symbol _ => true
  | branch zero one => zero.isFull && one.isFull

/-- The code with given lengths, if they leave no gap and are not too many. -/
def full? (lengths : List Nat) : Option Code :=
  match ofLengths lengths with
  | (code, []) => if code.isFull then some code else none
  | _ => none

/-- As `full?`, but there may also be no symbol at all, or only one, with a code of one bit. -/
def sparse? (lengths : List Nat) : Option Code :=
  match ordered lengths with
  | [] => some missing
  | [(1, n)] => some (branch (symbol n) missing)
  | _ => full? lengths

/-- The symbol whose code stands in front of `bits`, and the rest. -/
def decode : Code → Bits → Option (Nat × Bits)
  | branch zero one, b :: rest =>
    match if b then one else zero with
    | symbol n => some (n, rest)
    | next => next.decode rest
  | _, _ => none

/-- A code takes a bit at least. -/
theorem length_lt_of_decode {code : Code} {bits rest : Bits} {n : Nat}
    (h : code.decode bits = some (n, rest)) : rest.length < bits.length := by
  fun_induction decode code bits with
  | case1 zero one b bits m hm =>
    simp only [Option.some.injEq, Prod.mk.injEq] at h
    simp [← h.2]
  | case2 zero one b bits hnext ih =>
    have := ih h
    simp only [List.length_cons]
    omega
  | case3 => simp at h

end Code

end WidgetSkin.Deflate
