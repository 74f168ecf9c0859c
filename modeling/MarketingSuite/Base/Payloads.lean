import MarketingSuite.Base.Values

/-! # Reading JSON as Python does

Job payloads and the results of connectors are dictionaries of JSON values, which the code reads
with `get`, subscripts, `or` and `for` and without looking at their types. What Python raises on a
value of another type is raised here. -/

namespace MarketingSuite.Base.Payloads

open MarketingSuite.Base.Values

/-- A `dict` with string keys. -/
abbrev Dict : Type := List (String × Json)

/-- `bool(j)`. -/
def isTruthy : Json → Bool
  | .null => false
  | .bool b => b
  | .int n => n ≠ 0
  | .str s => s ≠ ""
  | .id _ => true
  | .time _ => true
  | .arr l => !l.isEmpty
  | .obj l => !l.isEmpty

/-- `a or b`. -/
def either (a b : Json) : Json := if isTruthy a then a else b

/-- `isinstance(j, dict)`. -/
def isObject : Json → Bool
  | .obj _ => true
  | _ => false

/-- `isinstance(j, str)`. -/
def isText : Json → Bool
  | .str _ => true
  | .id _ => true
  | .time _ => true
  | _ => false

/-- The text of a value that is a string. -/
def asStr (strOf : Json → String) : Json → Option String
  | .str s => some s
  | .id i => some (strOf (.id i))
  | .time t => some (strOf (.time t))
  | _ => none

/-- `j.get(key, default)`. -/
def get (j : Json) (key : String) (default : Json) : Except Exc Json :=
  match j with
  | .obj l => .ok ((l.lookup key).getD default)
  | _ => .error .attributeError

/-- `d[key]`. -/
def item (d : Dict) (key : String) : Except Exc Json :=
  match d.lookup key with
  | some v => .ok v
  | none => .error (.keyError key)

/-- `d[key] = v`. -/
def setItem (key : String) (v : Json) : Dict → Dict
  | [] => [(key, v)]
  | (k, u) :: l => if k = key then (key, v) :: l else (k, u) :: setItem key v l

/-- `j[key]`. -/
def subscript (j : Json) (key : String) : Except Exc Json :=
  match j with
  | .obj l => item l key
  | _ => .error .typeError

/-- What `for x in j` goes through: the elements of a list, the keys of a dictionary, the characters
of a string. -/
def iterate (strOf : Json → String) (j : Json) : Except Exc (List Json) :=
  match j, asStr strOf j with
  | _, some s => .ok (s.toList.map fun c => .str (String.singleton c))
  | .arr l, none => .ok l
  | .obj l, none => .ok (l.map fun p => .str p.1)
  | _, none => .error .typeError

/-- A value bound to a text column: a driver takes nothing but strings and null. -/
def bindText (strOf : Json → String) (j : Json) : Except Exc (Option String) :=
  match j, asStr strOf j with
  | _, some s => .ok (some s)
  | .null, none => .ok none
  | _, none => .error .dataError

/-- A value written to a text column that is not nullable. -/
def storeText (strOf : Json → String) (j : Json) : Except Exc String :=
  match bindText strOf j with
  | .ok (some s) => .ok s
  | .ok none => .error .integrity
  | .error e => .error e

/-- `uuid.UUID(j)`. -/
def uuidOf : Json → Except Exc Uuid
  | .id i => .ok i
  | .str _ => .error (.valueError "badly formed hexadecimal UUID string")
  | .time _ => .error (.valueError "badly formed hexadecimal UUID string")
  | .null => .error .typeError
  | _ => .error .attributeError

/-- **What a dictionary holds after an assignment**: the new value, and the other keys as before. -/
theorem lookup_setItem {key : String} {v : Json} (k : String) (l : Dict) :
    (setItem key v l).lookup k = if k = key then some v else l.lookup k := by
  induction l with
  | nil =>
    by_cases hk : k = key
    · simp [setItem, hk]
    · have hne : (k == key) = false := by simpa using hk
      simp [setItem, List.lookup_cons, hk, hne]
  | cons p l ih =>
    obtain ⟨k', u⟩ := p
    unfold setItem
    by_cases hk' : k' = key
    · subst hk'
      by_cases hk : k = k'
      · simp [hk]
      · have hne : (k == k') = false := by simpa using hk
        simp [List.lookup_cons, hk, hne]
    · by_cases hk : k = k'
      · subst hk
        simp [hk']
      · have hne : (k == k') = false := by simpa using hk
        simpa [List.lookup_cons, hk', hne] using ih

end MarketingSuite.Base.Payloads
