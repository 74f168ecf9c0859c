import MarketingSuite.Base.Values
import Mathlib.Data.List.Forall2
import Mathlib.Data.List.Induction
import Mathlib.Data.List.Nodup

/-! # Python objects and their JSON

The values that reach `json.dumps`, and what `json.loads` makes of the text it writes. Integers have
no bound of their own, but Python refuses to write one of more than 4300 digits. -/

namespace MarketingSuite.Base.Objects

open MarketingSuite.Base.Values
open MarketingSuite.Lib.Programs.Prog (bind_eq_ok pure_eq_ok)

/-- A key of a `dict`; `other` is one of a type that JSON has no text for. -/
inductive Key
  | str (s : String)
  | int (n : ℤ)
  | bool (b : Bool)
  | none
  | other (tag : ℕ)
deriving DecidableEq, Repr

/-- Python values: those of JSON, identifiers, datetimes, pydantic models with their fields, and
`leaf`, a value of any other type that pydantic can write (a date, a decimal, a set), with its JSON
form. -/
inductive Object
  | none
  | bool (b : Bool)
  | int (n : ℤ)
  | str (s : String)
  | uuid (i : Uuid)
  | datetime (t : DateTime)
  | leaf (form : Object)
  | list (l : List Object)
  | dict (l : List (Key × Object))
  | model (l : List (String × Object))
deriving Repr

/-- **Induction on an object**, with the hypothesis for every element, value and field. -/
@[induction_eliminator]
theorem Object.ind {P : Object → Prop} (none : P .none) (bool : ∀ b, P (.bool b))
    (int : ∀ n, P (.int n)) (str : ∀ s, P (.str s)) (uuid : ∀ i, P (.uuid i))
    (datetime : ∀ t, P (.datetime t)) (leaf : ∀ f, P f → P (.leaf f))
    (list : ∀ l, (∀ x ∈ l, P x) → P (.list l)) (dict : ∀ l, (∀ p ∈ l, P p.2) → P (.dict l))
    (model : ∀ l, (∀ p ∈ l, P p.2) → P (.model l)) (o : Object) : P o :=
  @Object.rec P (fun l => ∀ x ∈ l, P x) (fun l => ∀ p ∈ l, P p.2) (fun l => ∀ p ∈ l, P p.2)
    (fun p => P p.2) (fun p => P p.2) none bool int str uuid datetime leaf list dict model
    (by simp) (fun x l hx hl => by simpa using ⟨hx, hl⟩)
    (by simp) (fun p l hp hl => by simpa using ⟨hp, fun k x h => hl (k, x) h⟩)
    (by simp) (fun p l hp hl => by simpa using ⟨hp, fun k x h => hl (k, x) h⟩)
    (fun _ _ h => h) (fun _ _ h => h) o

/-- `Part x o`: the object `x` is `o`, or stands in it at some depth. -/
inductive Part (x : Object) : Object → Prop
  | self : Part x x
  | element {l : List Object} {y : Object} : y ∈ l → Part x y → Part x (.list l)
  | value {l : List (Key × Object)} {p : Key × Object} : p ∈ l → Part x p.2 → Part x (.dict l)
  | field {l : List (String × Object)} {p : String × Object} :
      p ∈ l → Part x p.2 → Part x (.model l)

/-- `isinstance(o, BaseModel)`. -/
def Object.isModel : Object → Bool
  | .model _ => true
  | _ => false

/-- `bool(o)`, where `leaf` says it of the other types. -/
def Object.truthy (leaf : Object → Bool) : Object → Bool
  | .none => false
  | .bool b => b
  | .int n => n ≠ 0
  | .str s => s ≠ ""
  | .list l => !l.isEmpty
  | .dict l => !l.isEmpty
  | .leaf form => leaf (.leaf form)
  | _ => true

/-! ### Writing and reading back -/

/-- Whether Python writes the integer `n` in decimal. -/
def writable (n : ℤ) : Bool := (Nat.toDigits 10 n.natAbs).length ≤ 4300

/-- The text of an integer. -/
def intText (n : ℤ) : Except Exc String :=
  if writable n then .ok (toString n)
  else .error (.valueError "Exceeds the limit (4300 digits) for integer string conversion")

/-- The text that `json.dumps` writes for the key of a `dict`. -/
def keyText : Key → Except Exc String
  | .str s => .ok s
  | .int n => intText n
  | .bool b => .ok (if b then "true" else "false")
  | .none => .ok "null"
  | .other _ => .error .typeError

/-- `d[key] = v`. -/
def assign (key : Key) (v : Object) : List (Key × Object) → List (Key × Object)
  | [] => [(key, v)]
  | p :: l => if p.1 = key then (key, v) :: l else p :: assign key v l

/-- `dict(pairs)`: of the values of one key the last one stays, where the first one stood. -/
def toDict (pairs : List (Key × Object)) : List (Key × Object) :=
  pairs.foldl (fun d p => assign p.1 p.2 d) []

/-- `json.loads(json.dumps(o, default=hook))`: what comes back of an object, where `hook` stands for
what comes back of one that JSON has no form for. -/
def encode (hook : Object → Except Exc Object) : Object → Except Exc Object
  | .none => .ok .none
  | .bool b => .ok (.bool b)
  | .int n => do
    let _ ← intText n
    return .int n
  | .str s => .ok (.str s)
  | .list l => do return .list (← encodeList l)
  | .dict l => do return .dict (toDict (← encodeEntries l))
  | o => hook o
termination_by structural o => o
where
  encodeList : List Object → Except Exc (List Object)
    | [] => .ok []
    | x :: l => do return (← encode hook x) :: (← encodeList l)
  termination_by structural l => l
  encodeEntries : List (Key × Object) → Except Exc (List (Key × Object))
    | [] => .ok []
    | (k, x) :: l => do
      let text ← keyText k
      return (.str text, ← encode hook x) :: (← encodeEntries l)
  termination_by structural l => l

/-- `json.dumps` without an encoder of its own: it has no form for the other types. -/
def unsupported (_ : Object) : Except Exc Object := .error .typeError

theorem unsupported_ne_ok {o r : Object} : unsupported o ≠ .ok r := by simp [unsupported]

theorem exists_left_of_forall₂ {α β : Type} {R : α → β → Prop} {l : List α} {r : List β} {y : β}
    (h : List.Forall₂ R l r) (hy : y ∈ r) : ∃ x ∈ l, R x y := by
  induction h with
  | nil => simp at hy
  | cons hxy _ ih =>
    rcases List.mem_cons.mp hy with rfl | hy
    · exact ⟨_, List.mem_cons_self, hxy⟩
    · obtain ⟨x, hx, hxy⟩ := ih hy
      exact ⟨x, List.mem_cons_of_mem _ hx, hxy⟩

variable {hook : Object → Except Exc Object}

theorem intText_eq_ok {n : ℤ} {text : String} :
    intText n = .ok text ↔ writable n = true ∧ toString n = text := by
  unfold intText
  split <;> simp_all

theorem encode_int {n : ℤ} {r : Object} :
    encode hook (.int n) = .ok r ↔ writable n = true ∧ r = .int n := by
  simp only [encode, bind_eq_ok, intText_eq_ok, pure_eq_ok]
  constructor
  · rintro ⟨text, ⟨hn, -⟩, hr⟩
    exact ⟨hn, hr⟩
  · rintro ⟨hn, hr⟩
    exact ⟨toString n, ⟨hn, rfl⟩, hr⟩

theorem encodeList_eq_ok {l r : List Object} :
    encode.encodeList hook l = .ok r ↔ List.Forall₂ (fun x y => encode hook x = .ok y) l r := by
  induction l generalizing r with
  | nil => rw [List.forall₂_nil_left_iff, encode.encodeList, Except.ok.injEq, eq_comm]
  | cons x l ih =>
    simp only [encode.encodeList, bind_eq_ok, ih, pure_eq_ok, List.forall₂_cons_left_iff]
    constructor
    · rintro ⟨y, hy, u, hu, rfl⟩
      exact ⟨y, u, hy, hu, rfl⟩
    · rintro ⟨y, u, hy, hu, rfl⟩
      exact ⟨y, hy, u, hu, rfl⟩

/-- What `json.loads` reads for the pair `p` of a `dict`. -/
def Reads (hook : Object → Except Exc Object) (p q : Key × Object) : Prop :=
  ∃ text, keyText p.1 = .ok text ∧ q.1 = .str text ∧ encode hook p.2 = .ok q.2

theorem encodeEntries_eq_ok {l r : List (Key × Object)} :
    encode.encodeEntries hook l = .ok r ↔ List.Forall₂ (Reads hook) l r := by
  induction l generalizing r with
  | nil => rw [List.forall₂_nil_left_iff, encode.encodeEntries, Except.ok.injEq, eq_comm]
  | cons p l ih =>
    obtain ⟨k, x⟩ := p
    simp only [encode.encodeEntries, bind_eq_ok, ih, pure_eq_ok, List.forall₂_cons_left_iff]
    constructor
    · rintro ⟨text, htext, y, hy, u, hu, rfl⟩
      exact ⟨(.str text, y), u, ⟨text, htext, rfl, hy⟩, hu, rfl⟩
    · rintro ⟨⟨_, y⟩, u, ⟨text, htext, rfl, hy⟩, hu, rfl⟩
      exact ⟨text, htext, y, hy, u, hu, rfl⟩

theorem encode_list {l : List Object} {r : Object} :
    encode hook (.list l) = .ok r ↔
      ∃ u, List.Forall₂ (fun x y => encode hook x = .ok y) l u ∧ r = .list u := by
  simp only [encode, bind_eq_ok, encodeList_eq_ok, pure_eq_ok]

theorem encode_dict {l : List (Key × Object)} {r : Object} :
    encode hook (.dict l) = .ok r ↔
      ∃ u, List.Forall₂ (Reads hook) l u ∧ r = .dict (toDict u) := by
  simp only [encode, bind_eq_ok, encodeEntries_eq_ok, pure_eq_ok]

/-! ### Dictionaries of pairs -/

theorem mem_assign {k : Key} {v : Object} {p : Key × Object} {l : List (Key × Object)}
    (h : p ∈ assign k v l) : p = (k, v) ∨ p ∈ l := by
  induction l with
  | nil => exact .inl (List.mem_singleton.mp h)
  | cons q l ih =>
    unfold assign at h
    split at h
    · rcases List.mem_cons.mp h with h | h
      · exact .inl h
      · exact .inr (List.mem_cons_of_mem _ h)
    · rcases List.mem_cons.mp h with h | h
      · exact .inr (h ▸ List.mem_cons_self)
      · exact (ih h).imp_right (List.mem_cons_of_mem _)

theorem assign_of_new {k : Key} {v : Object} {l : List (Key × Object)}
    (h : k ∉ l.map Prod.fst) : assign k v l = l ++ [(k, v)] := by
  induction l with
  | nil => rfl
  | cons q l ih =>
    rw [List.map_cons, List.mem_cons, not_or] at h
    rw [assign, if_neg (Ne.symm h.1), ih h.2, List.cons_append]

theorem keys_assign {k : Key} {v : Object} {l : List (Key × Object)} (h : k ∈ l.map Prod.fst) :
    (assign k v l).map Prod.fst = l.map Prod.fst := by
  induction l with
  | nil => simp at h
  | cons q l ih =>
    unfold assign
    split
    case isTrue hq => rw [List.map_cons, List.map_cons, hq]
    case isFalse hq =>
      rw [List.map_cons, List.mem_cons] at h
      rw [List.map_cons, List.map_cons, ih (h.resolve_left (Ne.symm hq))]

theorem nodup_assign {k : Key} {v : Object} {l : List (Key × Object)}
    (h : (l.map Prod.fst).Nodup) : ((assign k v l).map Prod.fst).Nodup := by
  by_cases hk : k ∈ l.map Prod.fst
  · rwa [keys_assign hk]
  · rw [assign_of_new hk, List.map_append]
    exact h.append (List.nodup_singleton k) (List.disjoint_singleton.mpr hk)

theorem toDict_append (l : List (Key × Object)) (p : Key × Object) :
    toDict (l ++ [p]) = assign p.1 p.2 (toDict l) := List.foldl_append

theorem mem_of_mem_toDict {p : Key × Object} {l : List (Key × Object)} (h : p ∈ toDict l) :
    p ∈ l := by
  induction l using List.reverseRecOn with
  | nil => exact h
  | append_singleton l q ih =>
    rw [toDict_append] at h
    rcases mem_assign h with rfl | h
    · exact List.mem_append_right l List.mem_cons_self
    · exact List.mem_append_left [q] (ih h)

theorem nodup_toDict (l : List (Key × Object)) : ((toDict l).map Prod.fst).Nodup := by
  induction l using List.reverseRecOn with
  | nil => exact List.nodup_nil
  | append_singleton l q ih =>
    rw [toDict_append]
    exact nodup_assign ih

theorem toDict_of_nodup {l : List (Key × Object)} (h : (l.map Prod.fst).Nodup) :
    toDict l = l := by
  induction l using List.reverseRecOn with
  | nil => rfl
  | append_singleton l q ih =>
    rw [List.map_append, List.map_singleton] at h
    have hl : toDict l = l := ih h.of_append_left
    rw [toDict_append, hl]
    refine assign_of_new fun hq => ?_
    exact List.disjoint_of_nodup_append h hq (List.mem_singleton_self _)

/-! ### Trees of JSON values -/

/-- A `dict` whose keys are distinct strings. -/
def TextKeyed (l : List (Key × Object)) : Prop :=
  (∀ p ∈ l, ∃ s, p.1 = .str s) ∧ (l.map Prod.fst).Nodup

theorem keys_of_reads {l u : List (Key × Object)} (h : List.Forall₂ (Reads hook) l u)
    (hl : TextKeyed l) : u.map Prod.fst = l.map Prod.fst := by
  induction h with
  | nil => rfl
  | @cons p q l u hpq _ ih =>
    obtain ⟨text, ht, hq, -⟩ := hpq
    obtain ⟨s, hs⟩ := hl.1 p List.mem_cons_self
    rw [hs] at ht
    obtain rfl : s = text := Except.ok.inj ht
    have hl' : TextKeyed l :=
      ⟨fun p' hp' => hl.1 p' (List.mem_cons_of_mem p hp'), (List.nodup_cons.mp hl.2).2⟩
    rw [List.map_cons, List.map_cons, hq, hs, ih hl']

/-- What may stand at one place of a tree that `json.loads` returns. -/
def JsonNode : Object → Prop
  | .none | .bool _ | .str _ | .list _ => True
  | .int n => writable n = true
  | .dict l => TextKeyed l
  | _ => False

/-- A tree of JSON values. -/
def IsJson (o : Object) : Prop := ∀ x, Part x o → JsonNode x

theorem IsJson.list {l : List Object} (h : ∀ x ∈ l, IsJson x) : IsJson (.list l) := by
  intro x hx
  cases hx with
  | self => trivial
  | element hy hx => exact h _ hy x hx

theorem IsJson.dict {l : List (Key × Object)} (hl : TextKeyed l) (h : ∀ p ∈ l, IsJson p.2) :
    IsJson (.dict l) := by
  intro x hx
  cases hx with
  | self => exact hl
  | value hp hx => exact h _ hp x hx

theorem IsJson.of_atom {o : Object} (h : JsonNode o) (hp : ∀ x, Part x o → x = o) : IsJson o :=
  fun x hx => hp x hx ▸ h

/-- **What is read back is a tree of JSON values**, if what stands for the other types is one. -/
theorem isJson_of_encode (hh : ∀ o r, hook o = .ok r → IsJson r) {o r : Object}
    (h : encode hook o = .ok r) : IsJson r := by
  induction o generalizing r with
  | none =>
    obtain rfl := Except.ok.inj h
    exact .of_atom trivial fun x hx => by cases hx; rfl
  | bool b =>
    obtain rfl := Except.ok.inj h
    exact .of_atom trivial fun x hx => by cases hx; rfl
  | int n =>
    obtain ⟨hn, rfl⟩ := encode_int.mp h
    exact .of_atom hn fun x hx => by cases hx; rfl
  | str s =>
    obtain rfl := Except.ok.inj h
    exact .of_atom trivial fun x hx => by cases hx; rfl
  | uuid i => exact hh _ r h
  | datetime t => exact hh _ r h
  | leaf f _ => exact hh _ r h
  | model l _ => exact hh _ r h
  | list l ih =>
    obtain ⟨u, hu, rfl⟩ := encode_list.mp h
    refine .list fun y hy => ?_
    obtain ⟨x, hx, hxy⟩ := exists_left_of_forall₂ hu hy
    exact ih x hx hxy
  | dict l ih =>
    obtain ⟨u, hu, rfl⟩ := encode_dict.mp h
    refine .dict ⟨fun q hq => ?_, nodup_toDict u⟩ fun q hq => ?_
    · obtain ⟨p, -, text, -, hq, -⟩ := exists_left_of_forall₂ hu (mem_of_mem_toDict hq)
      exact ⟨text, hq⟩
    · obtain ⟨p, hp, -, -, -, hq⟩ := exists_left_of_forall₂ hu (mem_of_mem_toDict hq)
      exact ih p hp hq

/-- **A tree of JSON values is read back as it was.** -/
theorem encode_of_isJson {o : Object} (h : IsJson o) : encode hook o = .ok o := by
  have hnode : JsonNode o := h o .self
  induction o with
  | none => rfl
  | bool b => rfl
  | int n => exact encode_int.mpr ⟨hnode, rfl⟩
  | str s => rfl
  | uuid i => exact hnode.elim
  | datetime t => exact hnode.elim
  | leaf f _ => exact hnode.elim
  | model l _ => exact hnode.elim
  | list l ih =>
    refine encode_list.mpr ⟨l, List.forall₂_same.mpr fun x hx => ?_, rfl⟩
    have hx' : IsJson x := fun y hy => h y (.element hx hy)
    exact ih x hx hx' (hx' x .self)
  | dict l ih =>
    refine encode_dict.mpr ⟨l, List.forall₂_same.mpr fun p hp => ?_, ?_⟩
    · have hp' : IsJson p.2 := fun y hy => h y (.value hp hy)
      obtain ⟨s, hs⟩ := hnode.1 p hp
      exact ⟨s, by rw [hs]; rfl, hs, ih p hp hp' (hp' p.2 .self)⟩
    · rw [toDict_of_nodup hnode.2]

end MarketingSuite.Base.Objects
