import SqlFragments.Postgres.Encode

/-!
# Accepted types and encoded values

Which types are supported is said twice: by the check of a type and, spread over the kinds
of values, by the encoder.  Between the two stands one relation, which value has a binary
form of its own in which type.  A type is accepted when it holds text or when some value has
a form in it, and the encoder refuses a value exactly where the relation does.

Main results:

- `ColumnType.isText_iff`: which types hold text.
- `isAccepted_iff`: a type is accepted when it holds text or some value has a form in it.
- `encode_of_not_hasForm`: a value without a form is a mismatch.
- `accepts_what_it_encodes`: the two lists of types never differ.
-/

namespace SqlFragments.Postgres

/-! ## Types -/

/-- The types that hold text: five built-in ones, and every type with one of four names. -/
def ColumnType.IsTextLike (t : ColumnType) : Prop :=
  (∃ name ∈ ["text", "varchar", "bpchar", "name", "unknown"], t = .builtin name) ∨
    t.name ∈ ["citext", "ltree", "lquery", "ltxtquery"]

/-- The test for a text type accepts the text types. -/
theorem ColumnType.isText_iff (t : ColumnType) : t.isText = true ↔ t.IsTextLike := by
  have hextension : extensionText = ["citext", "ltree", "lquery", "ltxtquery"] := rfl
  cases t with
  | builtin name =>
    simp only [isText, IsTextLike, Bool.or_eq_true, List.contains_iff_mem, builtinText,
      hextension, ColumnType.name, ColumnType.builtin.injEq, exists_eq_right']
  | custom schema name =>
    simp [isText_custom, IsTextLike, hextension, ColumnType.name]

/-- Which value has a binary form of its own in which type. -/
inductive HasForm : Value → ColumnType → Prop where
  | bool (b : Bool) : HasForm (.bool b) (.builtin "bool")
  | int (i : Int64) {name : String} (h : name ∈ ["int2", "int4", "int8", "float4", "float8"]) :
    HasForm (.int i) (.builtin name)
  | float (x : Number.Binary64) {name : String} (h : name ∈ ["float4", "float8"]) :
    HasForm (.float x) (.builtin name)

variable {v : Value} {t : ColumnType}

/-! ## The check -/

/-- Every type of fixed width is the type of some value. -/
theorem mem_fixedWidth_iff : t ∈ ColumnType.fixedWidth ↔ ∃ v, HasForm v t := by
  constructor
  · intro h
    simp only [ColumnType.fixedWidth, List.mem_cons, List.not_mem_nil, or_false] at h
    rcases h with rfl | rfl | rfl | rfl | rfl | rfl
    · exact ⟨.bool true, .bool true⟩
    all_goals exact ⟨.int 0, .int 0 (by decide)⟩
  · rintro ⟨v, h⟩
    cases h with
    | bool b => decide
    | int i h =>
      simp only [List.mem_cons, List.not_mem_nil, or_false] at h
      rcases h with rfl | rfl | rfl | rfl | rfl <;> decide
    | float x h =>
      simp only [List.mem_cons, List.not_mem_nil, or_false] at h
      rcases h with rfl | rfl <;> decide

/-- A type is accepted when it holds text or some value has a form in it. -/
theorem isAccepted_iff : t.isAccepted = true ↔ t.isText = true ∨ ∃ v, HasForm v t := by
  rw [ColumnType.isAccepted, Bool.or_eq_true, List.contains_iff_mem, mem_fixedWidth_iff]

/-! ## The encoder -/

/-- A value without a form in a type that does not hold text is a mismatch. -/
theorem encode_of_not_hasForm (hv : v.isNull = false) (ht : t.isText = false)
    (h : ¬HasForm v t) : encode v t = .error (.mismatch v.kind t) := by
  simp only [encode, hv, ht, Bool.false_eq_true, if_false]
  split
  · exact absurd (.bool _) h
  · exact absurd (.int _ (by decide)) h
  · exact absurd (.int _ (by decide)) h
  · exact absurd (.int _ (by decide)) h
  · exact absurd (.int _ (by decide)) h
  · exact absurd (.int _ (by decide)) h
  · exact absurd (.float _ (by decide)) h
  · exact absurd (.float _ (by decide)) h
  · rfl

/-- A value that is sent to a type that does not hold text has a form in it. -/
theorem HasForm.of_encode {bytes : List UInt8} (ht : t.isText = false)
    (h : encode v t = .ok (some bytes)) : HasForm v t := by
  refine Classical.byContradiction fun hform => ?_
  cases hv : v.isNull with
  | true => simp [encode, hv] at h
  | false => simp [encode_of_not_hasForm hv ht hform] at h

/-- Where some value has a form, zero or a truth value is sent. -/
theorem HasForm.exists_encode (h : HasForm v t) (ht : t.isText = false) :
    ∃ v bytes, v.isNull = false ∧ encode v t = .ok (some bytes) := by
  have hmem : t ∈ ColumnType.fixedWidth := mem_fixedWidth_iff.2 ⟨v, h⟩
  simp only [ColumnType.fixedWidth, List.mem_cons, List.not_mem_nil, or_false] at hmem
  rcases hmem with rfl | rfl | rfl | rfl | rfl | rfl
  · exact ⟨.bool true, _, rfl, rfl⟩
  · exact ⟨.int 0, twosComplement 2 0, rfl, rfl⟩
  · exact ⟨.int 0, twosComplement 4 0, rfl, rfl⟩
  · exact ⟨.int 0, twosComplement 8 0, rfl, rfl⟩
  · exact ⟨.int 0, _, rfl, rfl⟩
  · exact ⟨.int 0, _, rfl, rfl⟩

/-! ## Agreement -/

/-- A type is accepted exactly when some value other than nothing is sent to it. -/
theorem isAccepted_iff_exists_encode :
    t.isAccepted = true ↔ ∃ v bytes, v.isNull = false ∧ encode v t = .ok (some bytes) := by
  cases ht : t.isText with
  | true =>
    have haccepted : t.isAccepted = true := isAccepted_iff.2 (.inl ht)
    exact iff_of_true haccepted ⟨.bool true, _, rfl, encode_of_isText rfl ht⟩
  | false =>
    rw [isAccepted_iff, ht]
    constructor
    · rintro (h | ⟨v, h⟩)
      · cases h
      · exact h.exists_encode ht
    · rintro ⟨v, bytes, -, h⟩
      exact .inr ⟨v, .of_encode ht h⟩

/-- No value is sent to a type that is not accepted: nothing stays nothing and every other
value is a mismatch. -/
theorem encode_of_not_isAccepted (h : t.isAccepted = false) (v : Value) :
    encode v t = if v.isNull then .ok none else .error (.mismatch v.kind t) := by
  have hnot : ¬(t.isText = true ∨ ∃ v, HasForm v t) := by
    rw [← isAccepted_iff, h]
    exact Bool.false_ne_true
  obtain ⟨ht, hform⟩ := not_or.1 hnot
  cases hv : v.isNull with
  | true => simp [encode, hv]
  | false => exact encode_of_not_hasForm hv (Bool.not_eq_true _ ▸ ht) fun h => hform ⟨v, h⟩

/-- The check of a type and the encoder never drift apart.  A type is accepted exactly when
some value other than nothing is sent to it; on an accepted type the check changes nothing;
on any other it refuses every value, and without it nothing stays nothing and every other
value is a mismatch.  A type that holds text takes every value other than nothing. -/
theorem accepts_what_it_encodes (t : ColumnType) :
    (t.isAccepted = true ↔ ∃ v bytes, v.isNull = false ∧ encode v t = .ok (some bytes)) ∧
      (t.isAccepted = true → ∀ v, encodeChecked v t = encode v t) ∧
      (t.isAccepted = false → ∀ v, encodeChecked v t = .error .wrongType ∧
        encode v t = if v.isNull then .ok none else .error (.mismatch v.kind t)) ∧
      (t.IsTextLike → ∀ v : Value, v.isNull = false → ∃ bytes, encode v t = .ok (some bytes)) := by
  refine ⟨isAccepted_iff_exists_encode, encodeChecked_of_isAccepted, ?refused, ?text⟩
  case refused =>
    intro h v
    exact ⟨by simp [encodeChecked, h], encode_of_not_isAccepted h v⟩
  case text =>
    intro ht v hv
    exact ⟨_, encode_of_isText hv (t.isText_iff.2 ht)⟩

/-- A custom type with the name of a built-in one is not accepted; one with the name of an
extension's type is, whatever its schema. -/
theorem accepts_what_it_encodes_custom :
    encodeChecked (.int 1) (.custom "app" "int4") = .error .wrongType ∧
      encode (.int 1) (.custom "app" "int4") =
        .error (.mismatch "int" (.custom "app" "int4")) ∧
      encodeChecked .null (.custom "app" "citext") = encode .null (.custom "app" "citext") ∧
      ∃ bytes, encode (.int 1) (.custom "app" "citext") = .ok (some bytes) := by
  obtain ⟨-, -, himitation, -⟩ := accepts_what_it_encodes (.custom "app" "int4")
  obtain ⟨-, hextension, -, htext⟩ := accepts_what_it_encodes (.custom "app" "citext")
  obtain ⟨hchecked, hunchecked⟩ := himitation (by decide) (.int 1)
  exact ⟨hchecked, hunchecked, hextension (by decide) .null,
    htext (.inr (by decide)) (.int 1) rfl⟩

end SqlFragments.Postgres
