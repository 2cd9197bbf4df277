import WidgetSkin.Proofs.Decimal.Literal
import WidgetSkin.Proofs.Json.Text

/-!
# Written values read back

The text of a value is read as the value that was written, on its own and inside of anything
that is open around it. Values are written from texts, so that every string in them stands for
one.

## Main definitions

* `Value.Textual` — a value whose strings and keys stand for texts.
* `proceed?` — what the rest of a text leads to.

## Main statements

* `Value.Textual.readable` — a written value is read and handed to the frame around it.
* `parse?_pretty` — a textual value comes back from its text.
-/

namespace WidgetSkin.Json

open Text (Symbol)

/-- Every string and every key of the value stands for a text. -/
inductive Value.Textual : Value → Prop
  | null : Textual .null
  | bool (b : Bool) : Textual (.bool b)
  | number (n : Decimal.Numeral) : Textual (.number n)
  | string (s : String) : Textual (.ofString s)
  | array {items : List Value} (h : ∀ v ∈ items, Textual v) : Textual (.array items)
  | object {members : List (String × Value)} (h : ∀ m ∈ members, Textual m.2) :
    Textual (.ofMembers members)

/-! ## Reading on -/

/-- What the rest of a text leads to. -/
def proceed? (p : Progress) (s : List Symbol) : Option Progress :=
  (tokens? s).bind (·.foldlM advance? p)

/-- The next token is taken before the rest is read. -/
theorem bind_tokens_cons (p : Progress) (t : Token) (s : List Symbol) :
    ((tokens? s).map (t :: ·)).bind (·.foldlM advance? p) =
      (advance? p t).bind (proceed? · s) := by
  cases hs : tokens? s with
  | none => cases advance? p t <;> simp [proceed?, hs]
  | some ts => cases h : advance? p t <;> simp [proceed?, hs, h]

theorem proceed?_mark {c : Char} {m : Mark} (h : Mark.ofChar? c = some m) (p : Progress)
    (s : List Symbol) :
    proceed? p (some c :: s) = (advance? p (.mark m)).bind (proceed? · s) := by
  have hspace : isSpace c = false := by
    revert h
    unfold Mark.ofChar?
    split <;> simp [isSpace]
  rw [← bind_tokens_cons, proceed?, tokens?]
  simp [hspace, h]

theorem proceed?_space {c : Char} (h : isSpace c = true) (p : Progress) (s : List Symbol) :
    proceed? p (some c :: s) = proceed? p s := by
  rw [proceed?, tokens?]
  simp [h, proceed?]

theorem proceed?_newLine (depth : Nat) (p : Progress) (s : List Symbol) :
    proceed? p ((newLine depth).map some ++ s) = proceed? p s := by
  have hblanks : ∀ n, proceed? p ((List.replicate n ' ').map some ++ s) = proceed? p s := by
    intro n
    induction n with
    | zero => rfl
    | succ n ih =>
      rw [List.replicate_succ, List.map_cons, List.cons_append, proceed?_space (by decide), ih]
  rw [newLine, List.map_cons, List.cons_append, proceed?_space (by decide), hblanks]

theorem tokens?_string {rest behind : List Symbol} {ps : List Piece}
    (h : spanString rest = some (ps, behind)) :
    tokens? (some '"' :: rest) = (tokens? behind).map (.scalar (ofPieces ps) :: ·) := by
  have hspace : isSpace '"' = false := by decide
  have hmark : Mark.ofChar? '"' = none := by decide
  rw [tokens?]
  simp only [hspace, Bool.false_eq_true, if_false, hmark, if_true]
  split
  · next found => cases h.symm.trans found; rfl
  · next found => cases h.symm.trans found

theorem proceed?_quote (text : String) (p : Progress) (s : List Symbol) :
    proceed? p ((quote text).map some ++ s) =
      (advance? p (.scalar (.ofString text))).bind (proceed? · s) := by
  have hpieces : ofPieces (text.toList.map pieceOf) = .ofString text := by
    simp [ofPieces, pieceChars?_map_pieceOf, Value.ofString]
  rw [← bind_tokens_cons, proceed?, quote, List.map_cons, List.cons_append,
    tokens?_string (spanString_quote _ _), hpieces]

/-- The text does not go on with a word. -/
def EndsWord (s : List Symbol) : Prop :=
  ∀ c ∈ s.head?, isWordSymbol c = false

theorem proceed?_word {word : List Char} {v : Value}
    (hword : ∀ c ∈ word, isWordSymbol (some c) = true) (hv : ofWord? word = some v)
    {s : List Symbol} (hs : EndsWord s) (p : Progress) :
    proceed? p (word.map some ++ s) = (advance? p (.scalar v)).bind (proceed? · s) := by
  cases word with
  | nil => cases hv
  | cons c cs =>
    obtain ⟨hc, hcs⟩ := List.forall_mem_cons.1 hword
    simp only [isWordSymbol, Bool.and_eq_true, Bool.not_eq_true', Option.isNone_iff_eq_none,
      bne_iff_ne] at hc
    have hcs' : ∀ x ∈ cs.map some, isWordSymbol x = true := by simpa using hcs
    have hrest : s.takeWhile isWordSymbol = [] ∧ s.dropWhile isWordSymbol = s := by
      cases s with
      | nil => exact ⟨rfl, rfl⟩
      | cons x xs =>
        have hx := hs x rfl
        exact ⟨List.takeWhile_cons_of_neg (by simp [hx]), List.dropWhile_cons_of_neg (by simp [hx])⟩
    rw [← bind_tokens_cons, proceed?, List.map_cons, List.cons_append, tokens?]
    simp [hc, List.takeWhile_append_of_pos hcs', List.dropWhile_append_of_pos hcs', hrest, hv]

/-! ## Words -/

theorem isWordSymbol_of_mem_render {n : Decimal.Numeral} {c : Char} (h : c ∈ n.render true) :
    isWordSymbol (some c) = true := by
  have hdigit : ∀ d : Decimal.Digit, isWordSymbol (some d.toChar) = true := by decide
  have hmarks : ∀ c ∈ ['-', '+', '.', 'e'], isWordSymbol (some c) = true :=
    List.all_eq_true.1 (by decide)
  have hdigits : ∀ n, ∀ c ∈ Nat.toDigits 10 n, isWordSymbol (some c) = true := by
    intro n c hc
    obtain ⟨d, ds, htext, -, -⟩ := Decimal.exists_digits_eq n
    rw [htext] at hc
    obtain ⟨d, -, rfl⟩ := List.mem_map.1 hc
    exact hdigit d
  simp only [Decimal.Numeral.render, List.mem_append] at h
  rcases h with ((hsign | hwhole) | hpoint) | hexponent
  · exact hmarks c (by split at hsign <;> simp_all)
  · exact hdigits _ c hwhole
  · split at hpoint
    · cases hpoint
    · rcases List.mem_cons.1 hpoint with rfl | hpoint
      · exact hmarks _ (by simp)
      · obtain ⟨d, -, rfl⟩ := List.mem_map.1 hpoint
        exact hdigit d
  · cases he : n.exponent with
    | none => simp [he] at hexponent
    | some e =>
      simp only [he, Option.elim_some, Decimal.Numeral.renderExponent, List.mem_cons,
        List.mem_append] at hexponent
      rcases hexponent with rfl | hsign | hdigit
      · exact hmarks _ (by simp)
      · exact hmarks c (by split at hsign <;> simp_all)
      · exact hdigits _ c hdigit

theorem ofWord?_render (n : Decimal.Numeral) : ofWord? (n.render true) = some (.number n) := by
  have hread := Decimal.Numeral.ofJson?_render n
  have hne : ∀ word, Decimal.Numeral.ofJson? word = none → n.render true ≠ word := by
    rintro word hnone rfl
    rw [hread] at hnone
    cases hnone
  rw [ofWord?, if_neg (hne _ (by decide)), if_neg (hne _ (by decide)), if_neg (hne _ (by decide)),
    hread]
  rfl

/-! ## Values -/

/-- The next token begins a value inside `outer`, unless it ends an array. -/
def Expects (p : Progress) (outer : List Frame) : Prop :=
  ∀ t, t ≠ .mark .closeArray → advance? p t = begin? outer t

theorem expects_value (outer : List Frame) : Expects (.value outer) outer :=
  fun _ _ => rfl

theorem expects_firstItem (outer : List Frame) :
    Expects (.firstItem outer) (.array [] :: outer) := by
  intro t ht
  rcases t with ⟨- | - | - | - | - | -⟩ | v <;> first | rfl | exact absurd rfl ht

theorem endsWord_mark {c : Char} {m : Mark} (h : Mark.ofChar? c = some m) (s : List Symbol) :
    EndsWord (some c :: s) := by
  simp [EndsWord, isWordSymbol, h]

theorem endsWord_newLine (depth : Nat) (s : List Symbol) :
    EndsWord ((newLine depth).map some ++ s) := by
  intro c hc
  cases hc
  decide

section Items

variable {outer : List Frame} {s : List Symbol} {depth : Nat}

/-- A value that is read and handed on wherever it stands. -/
def Readable (v : Value) : Prop :=
  ∀ {depth : Nat} {p : Progress} {outer : List Frame} {s : List Symbol}, Expects p outer →
    EndsWord s → proceed? p ((v.pretty depth).map some ++ s) = proceed? (deliver v outer) s

theorem endsWord_prettyItems (vs : List Value) (hs : EndsWord s) :
    EndsWord ((Value.prettyItems depth vs).map some ++ s) := by
  cases vs with
  | nil => simpa [Value.prettyItems] using hs
  | cons v vs =>
    rw [Value.prettyItems, List.map_cons, List.cons_append]
    exact endsWord_mark (m := .comma) rfl _

theorem proceed?_prettyItems {vs : List Value} (h : ∀ v ∈ vs, Readable v) (hs : EndsWord s)
    (items : List Value) :
    proceed? (.afterItem items outer) ((Value.prettyItems depth vs).map some ++ s) =
      proceed? (.afterItem (vs.reverse ++ items) outer) s := by
  induction vs generalizing items with
  | nil => simp [Value.prettyItems]
  | cons v vs ih =>
    obtain ⟨hv, hvs⟩ := List.forall_mem_cons.1 h
    rw [Value.prettyItems, List.map_cons, List.cons_append, List.map_append, List.map_append,
      List.append_assoc, List.append_assoc, proceed?_mark (m := .comma) rfl]
    change proceed? (.value (.array items :: outer)) _ = _
    rw [proceed?_newLine, hv (expects_value _) (endsWord_prettyItems vs hs)]
    change proceed? (.afterItem (v :: items) outer) _ = _
    rw [ih hvs]
    simp

theorem proceed?_prettyMember {key : String} {v : Value} (h : Readable v) (hs : EndsWord s)
    {p : Progress} {members : List Member}
    (hp : advance? p (.scalar (.ofString key)) = some (.colon members (some key) outer)) :
    proceed? p ((Value.prettyMember depth (some key, v)).map some ++ s) =
      proceed? (.afterMember ((some key, v) :: members) outer) s := by
  rw [Value.prettyMember, List.map_append, List.map_append, List.append_assoc, List.append_assoc,
    Option.getD_some, proceed?_quote, hp, Option.bind_some]
  change proceed? _ (some ':' :: some ' ' :: ((v.pretty depth).map some ++ s)) = _
  rw [proceed?_mark (m := .colon) rfl]
  change proceed? (.value (.member members (some key) :: outer)) _ = _
  rw [proceed?_space (by decide), h (expects_value _) hs]
  rfl

theorem endsWord_prettyMembers (ms : List Member) (hs : EndsWord s) :
    EndsWord ((Value.prettyMembers depth ms).map some ++ s) := by
  cases ms with
  | nil => simpa [Value.prettyMembers] using hs
  | cons m ms =>
    rw [Value.prettyMembers, List.map_cons, List.cons_append]
    exact endsWord_mark (m := .comma) rfl _

theorem proceed?_prettyMembers {ms : List (String × Value)} (h : ∀ m ∈ ms, Readable m.2)
    (hs : EndsWord s) (members : List Member) :
    proceed? (.afterMember members outer)
        ((Value.prettyMembers depth (ms.map fun (key, v) => (some key, v))).map some ++ s) =
      proceed? (.afterMember ((ms.map fun (key, v) => (some key, v)).reverse ++ members) outer)
        s := by
  induction ms generalizing members with
  | nil => simp [Value.prettyMembers]
  | cons m ms ih =>
    obtain ⟨hm, hms⟩ := List.forall_mem_cons.1 h
    rw [List.map_cons, Value.prettyMembers, List.map_cons, List.cons_append, List.map_append,
      List.map_append, List.append_assoc, List.append_assoc, proceed?_mark (m := .comma) rfl]
    change proceed? (.nextKey members outer) _ = _
    rw [proceed?_newLine, proceed?_prettyMember hm (endsWord_prettyMembers _ hs) rfl, ih hms]
    simp

end Items

/-- A written value is read and handed to the frame around it, whatever comes behind it. -/
theorem Value.Textual.readable {v : Value} (h : v.Textual) : Readable v := by
  induction h with
  | null =>
    intro depth p outer s hp hs
    rw [Value.pretty, proceed?_word (v := .null) (List.all_eq_true.1 (by decide)) rfl hs,
      hp _ (by simp)]
    rfl
  | bool b =>
    intro depth p outer s hp hs
    have hword : ∀ c ∈ (if b then "true" else "false").toList,
        isWordSymbol (some c) = true := by
      cases b <;> exact List.all_eq_true.1 (by decide)
    have hread : ofWord? (if b then "true" else "false").toList = some (.bool b) := by
      cases b <;> rfl
    rw [Value.pretty, proceed?_word hword hread hs, hp _ (by simp)]
    rfl
  | number n =>
    intro depth p outer s hp hs
    rw [Value.pretty, proceed?_word (fun c => isWordSymbol_of_mem_render) (ofWord?_render n) hs,
      hp _ (by simp)]
    rfl
  | string text =>
    intro depth p outer s hp hs
    rw [Value.ofString, Value.pretty, Option.getD_some, proceed?_quote, hp _ (by simp)]
    rfl
  | @array items h ih =>
    intro depth p outer s hp hs
    cases items with
    | nil =>
      change proceed? p (some '[' :: some ']' :: s) = _
      rw [proceed?_mark (m := .openArray) rfl, hp _ (by simp)]
      change proceed? (.firstItem outer) _ = _
      rw [proceed?_mark (m := .closeArray) rfl]
      rfl
    | cons v vs =>
      obtain ⟨hv, hvs⟩ := List.forall_mem_cons.1 ih
      simp only [Value.pretty, List.map_cons, List.map_append, List.cons_append, List.append_assoc]
      rw [proceed?_mark (m := .openArray) rfl, hp _ (by simp)]
      change proceed? (.firstItem outer) _ = _
      rw [proceed?_newLine, hv (expects_firstItem outer)
        (endsWord_prettyItems vs (endsWord_newLine _ _))]
      change proceed? (.afterItem [v] outer) _ = _
      rw [proceed?_prettyItems hvs (endsWord_newLine _ _), proceed?_newLine]
      change proceed? _ (some ']' :: s) = _
      rw [proceed?_mark (m := .closeArray) rfl]
      simp [advance?]
  | @object members h ih =>
    intro depth p outer s hp hs
    cases members with
    | nil =>
      change proceed? p (some '\x7b' :: some '\x7d' :: s) = _
      rw [proceed?_mark (m := .openObject) rfl, hp _ (by simp)]
      change proceed? (.firstKey outer) _ = _
      rw [proceed?_mark (m := .closeObject) rfl]
      rfl
    | cons m ms =>
      obtain ⟨hm, hms⟩ := List.forall_mem_cons.1 ih
      simp only [Value.ofMembers, Value.pretty, List.map_cons, List.map_append, List.cons_append,
        List.append_assoc]
      rw [proceed?_mark (m := .openObject) rfl, hp _ (by simp)]
      change proceed? (.firstKey outer) _ = _
      rw [proceed?_newLine, proceed?_prettyMember hm
        (endsWord_prettyMembers _ (endsWord_newLine _ _)) rfl,
        proceed?_prettyMembers hms (endsWord_newLine _ _), proceed?_newLine]
      change proceed? _ (some '\x7d' :: s) = _
      rw [proceed?_mark (m := .closeObject) rfl]
      simp [advance?]

/-- A textual value comes back from its text. -/
theorem parse?_pretty {v : Value} (h : v.Textual) (depth : Nat) :
    parse? ((v.pretty depth).map some) = some v := by
  have hread : proceed? (.value []) ((v.pretty depth).map some ++ []) = some (.done v) := by
    rw [h.readable (expects_value []) (by simp [EndsWord])]
    simp [proceed?, tokens?, deliver]
  rw [List.append_nil, proceed?, Option.bind_eq_some_iff] at hread
  obtain ⟨ts, hts, hdone⟩ := hread
  simp [parse?, hts, ofTokens?, hdone]

theorem parse?_symbols_pretty {v : Value} (h : v.Textual) (depth : Nat) :
    parse? (Text.symbols (.ofList (v.pretty depth))) = some v := by
  rw [Text.symbols, String.toList_ofList, parse?_pretty h]

end WidgetSkin.Json
