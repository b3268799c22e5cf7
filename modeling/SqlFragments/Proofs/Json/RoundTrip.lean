import Mathlib.Data.List.Forall2
import SqlFragments.Proofs.Json.Numbers

/-!
# Lists of values are read back from JSON

Values are written without a tag, so the kind of a value has to be found again from
its text alone.  Each value is written as one scalar token, and the token is decoded
as a value of the same kind.  Only a number that is not finite changes its kind: it is
written as `null`.

Main results:

- `Json.readToken_writeValue`: a written value begins with its token.
- `Json.tokenize_writeList`: the tokens of a written list are those of its values.
- `Json.run_elementTokens`: the tokens of a list make the array of its values' documents.
- `Value.decodeListText_listToJson`: a written list of values is decoded as a list of as
  many values, each read from the one in its place.
-/

namespace SqlFragments

open Number

/-! ## Values as tokens and documents -/

namespace Value

/-- The token that a value is written as. -/
def token : Value → Json.Token
  | .null => .null
  | .bool b => .bool b
  | .int i => .number (.ofInt i.toInt)
  | .float x => if x.isFinite then .number (.ofFloat x) else .null
  | .text s => .string (s.toList.map Char.toNat)

/-- The document of a value. -/
def document : Value → Json
  | .null => .null
  | .bool b => .bool b
  | .int i => .number (.ofInt i.toInt)
  | .float x => if x.isFinite then .number (.ofFloat x) else .null
  | .text s => .string (s.toList.map Char.toNat)

/-- The token of a value stands for its document. -/
theorem scalar_token (v : Value) : v.token.scalar = some v.document := by
  cases v with
  | float x => cases hx : x.isFinite <;> simp [token, document, hx, Json.Token.scalar]
  | _ => rfl

/-- What may be read for a value that was written: the value itself, except that a finite
number is read as a finite number with its sign and any other number as nothing. -/
inductive ReadsAs : Value → Value → Prop
  | null : ReadsAs .null .null
  | bool (b : Bool) : ReadsAs (.bool b) (.bool b)
  | int (i : Int64) : ReadsAs (.int i) (.int i)
  | text (s : String) : ReadsAs (.text s) (.text s)
  | finite {x y : Binary64} (hx : x.isFinite = true) (hy : y.isFinite = true)
      (hsign : y.negative = x.negative) : ReadsAs (.float x) (.float y)
  | notFinite {x : Binary64} (hx : x.isFinite = false) : ReadsAs (.float x) .null

/-- The document of a value is sound, and it is decoded as a value of the same kind. -/
theorem exists_decodeJson_document (v : Value) :
    v.document.isSound = true ∧ ∃ w, decodeJson v.document = some w ∧ v.ReadsAs w := by
  cases v with
  | null => exact ⟨rfl, .null, rfl, .null⟩
  | bool b => exact ⟨rfl, .bool b, rfl, .bool b⟩
  | int i =>
    have hread := Json.Numeral.read_ofInt i.le_toInt (i.toInt_lt.trans (by decide))
    have hint : ofInt i.toInt = some (.int i) := ofInt_eq_some_iff.mpr ⟨i, rfl, rfl⟩
    refine ⟨by simp [document, Json.isSound, hread], .int i, ?_, .int i⟩
    simp [document, decodeNumeral, hread, hint]
  | float x =>
    cases hx : x.isFinite with
    | true =>
      obtain ⟨y, hread, hy, hsign⟩ := Json.Numeral.exists_read_ofFloat hx
      refine ⟨by simp [document, hx, Json.isSound, hread], .float y, ?_, .finite hx hy hsign⟩
      simp [document, hx, decodeNumeral, hread]
    | false =>
      refine ⟨by simp [document, hx, Json.isSound], .null, ?_, .notFinite hx⟩
      simp [document, hx]
  | text s =>
    have htext : Json.text? (s.toList.map Char.toNat) = some s := by
      rw [Json.text?, Json.pairSurrogates_text, Option.map_some, String.ofList_toList]
    refine ⟨by simp [document, Json.isSound, htext], .text s, ?_, .text s⟩
    simp [document, htext]

/-- The document of a value is neither an array nor an object. -/
theorem depth_document (v : Value) : v.document.depth = 0 := by
  cases v with
  | float x => cases hx : x.isFinite <;> simp [document, hx, Json.depth]
  | _ => rfl

end Value

namespace Json

/-! ## Tokens of a written list -/

/-- A written value begins with its token. -/
theorem readToken_writeValue (v : Value) {rest : List Char} (hrest : EndsNumeral rest) :
    readToken (writeValue v ++ rest) = some (v.token, rest) := by
  cases v with
  | null => rfl
  | bool b => cases b <;> rfl
  | int i =>
    rw [writeValue, ← Numeral.text_ofInt]
    exact readToken_numeral (Numeral.isWritten_ofInt _) hrest
  | float x =>
    cases hx : x.isFinite with
    | true =>
      simp only [writeValue, writeFloat, Value.token, hx, if_true]
      rw [← Numeral.text_ofFloat hx]
      exact readToken_numeral (Numeral.isWritten_ofFloat hx) hrest
    | false =>
      simp only [writeValue, writeFloat, Value.token, hx]
      rfl
  | text s => exact readToken_string s rest

/-- No token begins with a blank. -/
theorem readToken_of_isSpace {c : Char} (hc : isSpace c = true) (rest : List Char) :
    readToken (c :: rest) = none := by
  simp only [isSpace, Bool.or_eq_true, beq_iff_eq] at hc
  rcases hc with ((rfl | rfl) | rfl) | rfl <;> rfl

/-- The tokens of a text are its first token and the tokens of what follows. -/
theorem tokenize_of_readToken {text after : List Char} {t : Token}
    (h : readToken text = some (t, after)) : tokenize text = (tokenize after).map (t :: ·) := by
  cases text with
  | nil => simp [readToken, readNumeral, readUnsigned, readWhole, readRow, readDigits] at h
  | cons c rest =>
    have hc : isSpace c = false := by
      by_contra hspace
      rw [readToken_of_isSpace (by simpa using hspace)] at h
      exact absurd h (by simp)
    rw [tokenize, if_neg (by simp [hc])]
    split
    · rename_i hnone
      rw [hnone] at h
      exact absurd h (by simp)
    · rename_i hsome
      rw [hsome] at h
      obtain ⟨rfl, rfl⟩ := Prod.mk.inj (Option.some.inj h)
      rfl

/-- The tokens of values that each follow a comma. -/
def laterTokens (values : List Value) : List Token := values.flatMap fun v => [.comma, v.token]

/-- The tokens of the values of a list, with a comma between neighbours. -/
def elementTokens : List Value → List Token
  | [] => []
  | v :: values => v.token :: laterTokens values

/-- The text of values that each follow a comma. -/
def writeLater (values : List Value) : List Char := values.flatMap fun v => ',' :: writeValue v

/-- Values with commas between them are the first one and the later ones, each behind a comma. -/
theorem intercalate_writeValue (v : Value) (values : List Value) :
    [','].intercalate ((v :: values).map writeValue) = writeValue v ++ writeLater values := by
  induction values generalizing v with
  | nil => simp [writeLater]
  | cons w values ih =>
    rw [List.map_cons, List.map_cons, List.intercalate_cons_cons, ← List.map_cons, ih]
    simp [writeLater]

/-- What follows a value in a list does not continue a numeral. -/
theorem endsNumeral_writeLater (values : List Value) :
    EndsNumeral (writeLater values ++ [']']) := by
  intro c hc
  cases values with
  | nil =>
    obtain rfl : ']' = c := Option.some.inj hc
    decide
  | cons v values =>
    obtain rfl : ',' = c := Option.some.inj hc
    decide

/-- The text of the later values and the closing bracket is cut into their tokens. -/
theorem tokenize_writeLater (values : List Value) :
    tokenize (writeLater values ++ [']']) = some (laterTokens values ++ [.closeBracket]) := by
  induction values with
  | nil =>
    have htoken : readToken [']'] = some (.closeBracket, []) := rfl
    rw [writeLater, List.flatMap_nil, List.nil_append, tokenize_of_readToken htoken, tokenize]
    rfl
  | cons v values ih =>
    have htext : writeLater (v :: values) ++ [']'] =
        ',' :: (writeValue v ++ (writeLater values ++ [']'])) := by simp [writeLater]
    have htoken := readToken_writeValue v (endsNumeral_writeLater values)
    rw [htext, tokenize_of_readToken (t := .comma) rfl, tokenize_of_readToken htoken, ih]
    rfl

/-- The tokens of a written list are those of its values between the brackets. -/
theorem tokenize_writeList (values : List Value) :
    tokenize (writeList values) =
      some (.openBracket :: (elementTokens values ++ [.closeBracket])) := by
  have helements : tokenize ([','].intercalate (values.map writeValue) ++ [']']) =
      some (elementTokens values ++ [.closeBracket]) := by
    cases values with
    | nil => exact tokenize_writeLater []
    | cons v values =>
      have htoken := readToken_writeValue v (endsNumeral_writeLater values)
      rw [intercalate_writeValue, List.append_assoc, tokenize_of_readToken htoken,
        tokenize_writeLater]
      rfl
  rw [writeList, List.cons_append, tokenize_of_readToken (t := .openBracket) rfl, helements]
  rfl

/-! ## The array of a written list -/

/-- Where a value or the end of an array is due, a scalar token is that value. -/
theorem run_scalar_of_elementOrEnd {t : Token} {v : Json} (h : t.scalar = some v)
    (tokens : List Token) (done : List Json) (stack : List Frame) :
    run (t :: tokens) .elementOrEnd (.array done :: stack) =
      run tokens (.rest v) (.array done :: stack) := by
  cases t <;> simp_all [run, step, startValue, Token.scalar]

/-- After a complete element, the tokens of further values complete the array. -/
theorem run_laterTokens (v : Json) (values : List Value) (done : List Json) :
    run (laterTokens values ++ [.closeBracket]) (.rest v) [.array done] =
      some (.array (done.reverse ++ v :: values.map Value.document)) := by
  induction values generalizing v done with
  | nil => simp [laterTokens, run, step]
  | cons w values ih =>
    have htokens : laterTokens (w :: values) ++ [.closeBracket] =
        .comma :: w.token :: (laterTokens values ++ [.closeBracket]) := by simp [laterTokens]
    have hcomma : run (.comma :: w.token :: (laterTokens values ++ [.closeBracket])) (.rest v)
        [.array done] = run (w.token :: (laterTokens values ++ [.closeBracket])) .value
          [.array (v :: done)] := rfl
    rw [htokens, hcomma, run_scalar w.scalar_token, ih]
    simp

/-- The tokens of a written list make the array of the documents of its values. -/
theorem run_elementTokens (values : List Value) :
    run (.openBracket :: (elementTokens values ++ [.closeBracket])) .value [] =
      some (.array (values.map Value.document)) := by
  have hopen : ∀ tokens, run (.openBracket :: tokens) .value [] =
      run tokens .elementOrEnd [.array []] := fun _ => rfl
  rw [hopen]
  cases values with
  | nil => rfl
  | cons v values =>
    rw [elementTokens, List.cons_append, run_scalar_of_elementOrEnd v.scalar_token,
      run_laterTokens]
    rfl

/-- A written list is the array of the documents of its values. -/
theorem parse_writeList (values : List Value) :
    parse (String.ofList (writeList values)) = some (.array (values.map Value.document)) := by
  rw [parse, String.toList_ofList, tokenize_writeList, Option.bind_some, run_elementTokens]

/-- Arrays of sound scalars can be read. -/
theorem isReadable_documents (values : List Value) :
    isReadable (.array (values.map Value.document)) = true := by
  have hsound : areSound (values.map Value.document) = true := by
    induction values with
    | nil => rfl
    | cons v values ih => rw [List.map_cons, areSound, v.exists_decodeJson_document.1, ih]; rfl
  have hdepth : depthOf (values.map Value.document) = 0 := by
    induction values with
    | nil => rfl
    | cons v values ih =>
      rw [List.map_cons, areSound, Bool.and_eq_true] at hsound
      rw [List.map_cons, depthOf, v.depth_document, ih hsound.2, Nat.max_self]
  rw [isReadable, isSound, hsound, depth, hdepth]
  rfl

end Json

namespace Value

/-- Decoding the documents of values gives a value for each, in their order. -/
theorem exists_mapM_decodeJson (values : List Value) :
    ∃ read, (values.map document).mapM decodeJson = some read ∧
      List.Forall₂ ReadsAs values read := by
  induction values with
  | nil => exact ⟨[], rfl, .nil⟩
  | cons v values ih =>
    obtain ⟨-, w, hw, hreads⟩ := v.exists_decodeJson_document
    obtain ⟨read, hread, hall⟩ := ih
    refine ⟨w :: read, ?_, .cons hreads hall⟩
    rw [List.map_cons, List.mapM_cons, hw, hread]
    rfl

/-- A list of values that is written without tags is decoded as a list of as many values in
their order: nothing, truth values, integers and texts are the same, a finite number is
a finite number, and a number that is not finite is nothing. -/
theorem decodeListText_listToJson (values : List Value) :
    ∃ read, decodeListText (listToJson values) = some read ∧ List.Forall₂ ReadsAs values read := by
  obtain ⟨read, hread, hall⟩ := exists_mapM_decodeJson values
  refine ⟨read, ?_, hall⟩
  have hparse : Json.parseReadable (listToJson values) =
      some (.array (values.map document)) := by
    rw [Json.parseReadable, listToJson, Json.parse_writeList, Option.filter_some,
      Json.isReadable_documents, if_pos rfl]
  rw [decodeListText, hparse]
  exact hread

example : decodeListText (listToJson [.int 1, .text "1", .float (.ofNat 1), .null]) =
    some [.int 1, .text "1", .float (.ofNat 1), .null] := by
  decide +kernel

end Value

end SqlFragments
