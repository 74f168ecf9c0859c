import MarketingSuite.Base.Values
import Mathlib.Tactic.Common

/-! # Dictionaries that are written as JSON

The values that the services put into dictionaries, and what the standard encoder makes of them: it
takes null, booleans, numbers, strings and the enumerations that are strings, and raises a
`TypeError` on an identifier or a `datetime`. -/

namespace MarketingSuite.Base.Encoding

open MarketingSuite.Base.Values

/-- A value in a dictionary. The last two are the string forms of an identifier and of a `datetime`.
-/
inductive Value
  | none
  | bool (b : Bool)
  | int (n : ℤ)
  | str (s : String)
  | enum (value : String)
  | uuid (i : Uuid)
  | datetime (t : DateTime)
  | uuidText (i : Uuid)
  | datetimeText (t : DateTime)

/-- A dictionary with string keys. -/
abbrev Values : Type := List (String × Value)

/-- `json.dumps` of a value. -/
def encode : Value → Option Json
  | .none => some .null
  | .bool b => some (.bool b)
  | .int n => some (.int n)
  | .str s => some (.str s)
  | .enum value => some (.str value)
  | .uuid _ => Option.none
  | .datetime _ => Option.none
  | .uuidText i => some (.id i)
  | .datetimeText t => some (.time t)

/-- `json.dumps` of a dictionary. -/
def encodeDict : Values → Option (List (String × Json))
  | [] => some []
  | (key, v) :: l => do
    let j ← encode v
    let l ← encodeDict l
    pure ((key, j) :: l)

/-- The encoder takes every value of the dictionary. -/
def Serializable (l : Values) : Prop := ∀ p ∈ l, (encode p.2).isSome = true

/-- `str(v) if isinstance(v, uuid.UUID) or isinstance(v, datetime) else v`. -/
def sanitize : Value → Value
  | .uuid i => .uuidText i
  | .datetime t => .datetimeText t
  | v => v

/-- `sanitize_dict` of `_log_audit`. -/
def sanitizeDict : Option Values → Option Values
  | Option.none => Option.none
  | some [] => Option.none
  | some l => some (l.map fun p => (p.1, sanitize p.2))

/-- A field of a body in `model_dump(exclude_unset=True)`. -/
def field {α : Type} (key : String) (value : α → Value) : PatchField α → Values
  | Option.none => []
  | some Option.none => [(key, .none)]
  | some (some a) => [(key, value a)]

variable {l l' : Values}

theorem encodeDict_isSome : (encodeDict l).isSome = true ↔ Serializable l := by
  induction l with
  | nil => simp [encodeDict, Serializable]
  | cons p l ih =>
    obtain ⟨key, v⟩ := p
    rw [Serializable, List.forall_mem_cons, ← Serializable, ← ih, encodeDict]
    rcases encode v with _ | j
    · simp
    · rcases encodeDict l with _ | l
      · simp
      · simp

theorem serializable_append : Serializable (l ++ l') ↔ Serializable l ∧ Serializable l' :=
  List.forall_mem_append

theorem encode_sanitize (v : Value) : (encode (sanitize v)).isSome = true := by
  cases v <;> rfl

/-- **A sanitised dictionary** can be encoded, whatever was in it. -/
theorem serializable_sanitizeDict {o : Option Values} (h : sanitizeDict o = some l) :
    Serializable l := by
  rcases o with _ | _ | ⟨p, k⟩
  · exact absurd h (by simp [sanitizeDict])
  · exact absurd h (by simp [sanitizeDict])
  · obtain rfl := Option.some.inj h
    intro q hq
    obtain ⟨r, -, rfl⟩ := List.mem_map.mp hq
    exact encode_sanitize r.2

theorem serializable_field {α : Type} {key : String} {value : α → Value} {p : PatchField α}
    (h : ∀ a, (encode (value a)).isSome = true) : Serializable (field key value p) := by
  rcases p with _ | _ | a
  · exact fun q hq => absurd hq List.not_mem_nil
  · intro q hq
    rw [List.mem_singleton.mp hq]
    rfl
  · intro q hq
    rw [List.mem_singleton.mp hq]
    exact h a

end MarketingSuite.Base.Encoding
