import MarketingSuite.Base.Objects

/-! # Serialising payloads

`JobSerializer.serialize` of `app/jobs/serializers.py`. A model at the top is dumped in pydantic's
Python mode, which keeps datetimes and the like as they are, and a model inside the payload goes
through `UUIDEncoder` and is dumped in JSON mode, which turns them into text. -/

namespace MarketingSuite.Jobs.Serializer

open MarketingSuite.Base.Values MarketingSuite.Base.Objects
open MarketingSuite.Lib.Programs.Prog (bind_eq_ok)

/-- The texts of an identifier, and in pydantic's JSON mode of a datetime and of the key of a `dict`
that is no string. -/
structure Texts where
  uuid : Uuid → String
  time : DateTime → String
  key : Key → String

/-- `model_dump()`: the models become dictionaries. -/
def dump : Object → Object
  | .list l => .list (dumpList l)
  | .dict l => .dict (dumpEntries l)
  | .model l => .dict (dumpFields l)
  | o => o
termination_by structural o => o
where
  dumpList : List Object → List Object
    | [] => []
    | x :: l => dump x :: dumpList l
  termination_by structural l => l
  dumpEntries : List (Key × Object) → List (Key × Object)
    | [] => []
    | (k, x) :: l => (k, dump x) :: dumpEntries l
  termination_by structural l => l
  dumpFields : List (String × Object) → List (Key × Object)
    | [] => []
    | (k, x) :: l => (.str k, dump x) :: dumpFields l
  termination_by structural l => l

/-- The JSON mode's form of a key. -/
def keyForm (t : Texts) : Key → Key
  | .str s => .str s
  | k => .str (t.key k)

/-- `model_dump(mode="json")`: every value is written as JSON has it. -/
def dumpJson (t : Texts) : Object → Object
  | .uuid i => .str (t.uuid i)
  | .datetime d => .str (t.time d)
  | .leaf form => form
  | .list l => .list (jsonList l)
  | .dict l => .dict (toDict (jsonEntries l))
  | .model l => .dict (jsonFields l)
  | o => o
termination_by structural o => o
where
  jsonList : List Object → List Object
    | [] => []
    | x :: l => dumpJson t x :: jsonList l
  termination_by structural l => l
  jsonEntries : List (Key × Object) → List (Key × Object)
    | [] => []
    | (k, x) :: l => (keyForm t k, dumpJson t x) :: jsonEntries l
  termination_by structural l => l
  jsonFields : List (String × Object) → List (Key × Object)
    | [] => []
    | (k, x) :: l => (.str k, dumpJson t x) :: jsonFields l
  termination_by structural l => l

/-- `UUIDEncoder.default`. -/
def default (t : Texts) : Object → Except Exc Object
  | .uuid i => .ok (.str (t.uuid i))
  | .model l => .ok (dumpJson t (.model l))
  | _ => .error .typeError

/-- What is read back of an object that `UUIDEncoder` has to write. What `default` returns holds no
identifier and no model, so that it is not called again. -/
def written (t : Texts) (o : Object) : Except Exc Object := do
  encode unsupported (← default t o)

/-- `JobSerializer.serialize`. -/
def serialize (t : Texts) (payload : Object) : Except Exc Object :=
  if payload.isModel then encode (written t) (dump payload) else encode (written t) payload

variable {t : Texts}

@[simp] theorem dump_list (l : List Object) : dump (.list l) = .list (l.map dump) := by
  rw [dump]
  congr
  induction l with
  | nil => rfl
  | cons x l ih => rw [dump.dumpList, ih, List.map_cons]

@[simp] theorem dump_dict (l : List (Key × Object)) :
    dump (.dict l) = .dict (l.map fun p => (p.1, dump p.2)) := by
  rw [dump]
  congr
  induction l with
  | nil => rfl
  | cons p l ih => rw [dump.dumpEntries, ih, List.map_cons]

@[simp] theorem dump_model (l : List (String × Object)) :
    dump (.model l) = .dict (l.map fun p => (.str p.1, dump p.2)) := by
  rw [dump]
  congr
  induction l with
  | nil => rfl
  | cons p l ih => rw [dump.dumpFields, ih, List.map_cons]

@[simp] theorem dumpJson_list (l : List Object) :
    dumpJson t (.list l) = .list (l.map (dumpJson t)) := by
  rw [dumpJson]
  congr
  induction l with
  | nil => rfl
  | cons x l ih => rw [dumpJson.jsonList, ih, List.map_cons]

@[simp] theorem dumpJson_dict (l : List (Key × Object)) :
    dumpJson t (.dict l) = .dict (toDict (l.map fun p => (keyForm t p.1, dumpJson t p.2))) := by
  rw [dumpJson]
  congr
  induction l with
  | nil => rfl
  | cons p l ih => rw [dumpJson.jsonEntries, ih, List.map_cons]

@[simp] theorem dumpJson_model (l : List (String × Object)) :
    dumpJson t (.model l) = .dict (l.map fun p => (.str p.1, dumpJson t p.2)) := by
  rw [dumpJson]
  congr
  induction l with
  | nil => rfl
  | cons p l ih => rw [dumpJson.jsonFields, ih, List.map_cons]

/-! ### Models -/

/-- The keys of a `dict` are distinct strings, and the fields of a model have distinct names. -/
def TextNode : Object → Prop
  | .dict l => TextKeyed l
  | .model l => (l.map Prod.fst).Nodup
  | _ => True

/-- A payload all of whose dictionaries have string keys. -/
def StringKeyed (o : Object) : Prop := ∀ x, Part x o → TextNode x

/-- A value that `json.dumps` writes as pydantic's JSON mode does. -/
def PlainNode : Object → Prop
  | .datetime _ | .leaf _ => False
  | .int n => writable n = true
  | _ => True

/-- A payload that holds, at any depth, no value but JSON's and identifiers. -/
def Plain (o : Object) : Prop := ∀ x, Part x o → PlainNode x

theorem nodup_fieldKeys {l : List (String × Object)} (h : (l.map Prod.fst).Nodup) :
    ((l.map fun p => ((.str p.1, dumpJson t p.2) : Key × Object)).map Prod.fst).Nodup := by
  have hmap : (l.map Prod.fst).map Key.str =
      l.map (Prod.fst ∘ fun p => ((.str p.1, dumpJson t p.2) : Key × Object)) := List.map_map
  rw [List.map_map, ← hmap]
  exact h.map fun a b hab => Key.str.inj hab

/-- **A plain payload is written as its JSON form**, once its models are dumped in Python mode. -/
theorem encode_dump {o : Object} (hk : StringKeyed o) (hp : Plain o) :
    encode (written t) (dump o) = .ok (dumpJson t o) := by
  induction o with
  | none => rfl
  | bool b => rfl
  | int n => exact encode_int.mpr ⟨hp _ .self, rfl⟩
  | str s => rfl
  | uuid i => rfl
  | datetime d => exact (hp _ .self).elim
  | leaf f _ => exact (hp _ .self).elim
  | list l ih =>
    rw [dump_list, dumpJson_list]
    refine encode_list.mpr ⟨_, ?_, rfl⟩
    rw [List.forall₂_map_left_iff, List.forall₂_map_right_iff, List.forall₂_same]
    exact fun x hx => ih x hx (fun y hy => hk y (.element hx hy)) fun y hy => hp y (.element hx hy)
  | dict l ih =>
    rw [dump_dict, dumpJson_dict]
    refine encode_dict.mpr ⟨_, ?_, rfl⟩
    rw [List.forall₂_map_left_iff, List.forall₂_map_right_iff, List.forall₂_same]
    intro p hpl
    obtain ⟨s, hs⟩ := (hk _ .self).1 p hpl
    refine ⟨s, by rw [hs]; rfl, by rw [hs]; rfl, ih p hpl (fun y hy => hk y (.value hpl hy)) ?_⟩
    exact fun y hy => hp y (.value hpl hy)
  | model l ih =>
    rw [dump_model, dumpJson_model]
    refine encode_dict.mpr ⟨_, ?_, by rw [toDict_of_nodup (nodup_fieldKeys (hk _ .self))]⟩
    rw [List.forall₂_map_left_iff, List.forall₂_map_right_iff, List.forall₂_same]
    exact fun p hpl => ⟨p.1, rfl, rfl, ih p hpl (fun y hy => hk y (.field hpl hy))
      fun y hy => hp y (.field hpl hy)⟩

/-- What is written once its models are dumped in Python mode is plain. -/
theorem plain_of_encode_dump {o r : Object} (h : encode (written t) (dump o) = .ok r) :
    Plain o := by
  intro x hx
  induction hx generalizing r with
  | self =>
    cases x with
    | int n => exact (encode_int.mp h).1
    | datetime d => simp [dump, encode, written, default, bind, Except.bind] at h
    | leaf f => simp [dump, encode, written, default, bind, Except.bind] at h
    | _ => trivial
  | element hy _ ih =>
    rw [dump_list] at h
    obtain ⟨u, hu, -⟩ := encode_list.mp h
    rw [List.forall₂_map_left_iff] at hu
    obtain ⟨v, -, hv⟩ := exists_left_of_forall₂ hu.flip hy
    exact ih hv
  | value hy _ ih =>
    rw [dump_dict] at h
    obtain ⟨u, hu, -⟩ := encode_dict.mp h
    rw [List.forall₂_map_left_iff] at hu
    obtain ⟨v, -, -, -, -, hv⟩ := exists_left_of_forall₂ hu.flip hy
    exact ih hv
  | field hy _ ih =>
    rw [dump_model] at h
    obtain ⟨u, hu, -⟩ := encode_dict.mp h
    rw [List.forall₂_map_left_iff] at hu
    obtain ⟨v, -, -, -, -, hv⟩ := exists_left_of_forall₂ hu.flip hy
    exact ih hv

theorem isJson_of_written {o r : Object} (h : written t o = .ok r) : IsJson r := by
  obtain ⟨a, -, ha⟩ := bind_eq_ok.mp h
  exact isJson_of_encode (fun _ _ h => (unsupported_ne_ok h).elim) ha

/-- **What stands for a model inside a payload** is its JSON form. -/
theorem written_model {o : Object} (hm : o.isModel = true) (hj : IsJson (dumpJson t o)) :
    encode (written t) o = .ok (dumpJson t o) := by
  cases o with
  | model l => exact encode_of_isJson hj
  | _ => exact absurd hm Bool.false_ne_true

/-! ### Agreement and stability -/

/-- **The payload `p` is serialised as `v`**: at the top, and wherever a dictionary holds it. -/
structure SerializesAs (t : Texts) (p v : Object) : Prop where
  itself : serialize t p = .ok v
  inside : ∀ k, serialize t (.dict [(.str k, p)]) = .ok (.dict [(.str k, v)])
  among : ∀ l k r, TextKeyed l → (.str k, p) ∈ l → serialize t (.dict l) = .ok r →
    ∃ u, r = .dict u ∧ (.str k, v) ∈ u

/-- **What serialisation returns** is a tree of JSON values and serialises as itself. -/
def Stable (t : Texts) (p : Object) : Prop :=
  ∀ r, serialize t p = .ok r → IsJson r ∧ serialize t r = .ok r

theorem not_isModel_of_isJson {r : Object} (h : IsJson r) : r.isModel = false := by
  cases r with
  | model l => exact (h _ .self).elim
  | _ => rfl

theorem stable (p : Object) : Stable t p := by
  intro r h
  have hr : IsJson r := by
    unfold serialize at h
    split at h
    · exact isJson_of_encode (fun _ _ => isJson_of_written) h
    · exact isJson_of_encode (fun _ _ => isJson_of_written) h
  refine ⟨hr, ?_⟩
  rw [serialize, not_isModel_of_isJson hr, if_neg Bool.false_ne_true]
  exact encode_of_isJson hr

theorem reads_text {k : String} {p v : Object} (h : encode (written t) p = .ok v) :
    Reads (written t) (.str k, p) (.str k, v) := ⟨k, rfl, rfl, h⟩

theorem serializesAs_of_plain {p : Object} (hm : p.isModel = true) (hk : StringKeyed p)
    (hp : Plain p) : SerializesAs t p (dumpJson t p) := by
  have hd : encode (written t) (dump p) = .ok (dumpJson t p) := encode_dump hk hp
  have hj : IsJson (dumpJson t p) := isJson_of_encode (fun _ _ => isJson_of_written) hd
  have hi : encode (written t) p = .ok (dumpJson t p) := written_model hm hj
  refine ⟨(if_pos hm).trans hd, fun k => ?_, fun l k r hl hkl hr => ?_⟩
  · exact encode_dict.mpr ⟨[(.str k, dumpJson t p)], .cons (reads_text hi) .nil, rfl⟩
  · obtain ⟨u, hu, rfl⟩ := encode_dict.mp hr
    refine ⟨toDict u, rfl, ?_⟩
    -- The texts of the keys are the keys, so that nothing is merged.
    rw [toDict_of_nodup (keys_of_reads hu hl ▸ hl.2)]
    obtain ⟨⟨_, v⟩, hq, text, ht, rfl, hv⟩ := exists_left_of_forall₂ hu.flip hkl
    obtain rfl : k = text := Except.ok.inj ht
    obtain rfl : dumpJson t p = v := Except.ok.inj (hi.symm.trans hv)
    exact hq

/-- **When serialisation agrees with the model's JSON form**: it does exactly for the models that
hold no datetime and no other value but JSON's and identifiers, at any depth. What is returned is
stable in any case. -/
theorem serializes_iff (t : Texts) (p : Object) :
    ((p.isModel = true → StringKeyed p → SerializesAs t p (dumpJson t p)) ∧ Stable t p) ↔
      (p.isModel = true → StringKeyed p → Plain p) := by
  constructor
  · rintro ⟨h, -⟩ hm hk
    have hs : serialize t p = .ok (dumpJson t p) := (h hm hk).itself
    rw [serialize, if_pos hm] at hs
    exact plain_of_encode_dump hs
  · exact fun h => ⟨fun hm hk => serializesAs_of_plain hm hk (h hm hk), stable p⟩

/-- A model with a datetime raises at the top, and is written inside a dictionary. -/
theorem dated_model_raises :
    let t : Texts := ⟨toString, fun _ => "2026-03-01T09:00:00Z", fun _ => "None"⟩
    let p : Object := .model [("scheduled_at", .datetime ⟨1772355600000000, true⟩)]
    p.isModel = true ∧ StringKeyed p ∧ serialize t p = .error .typeError ∧
      dumpJson t p = .dict [(.str "scheduled_at", .str "2026-03-01T09:00:00Z")] ∧
      serialize t (.dict [(.str "post", p)]) = .ok (.dict [(.str "post", dumpJson t p)]) := by
  refine ⟨rfl, fun x hx => ?_, rfl, rfl, rfl⟩
  cases hx with
  | self => exact List.nodup_singleton _
  | field hp hx =>
    obtain rfl := List.mem_singleton.mp hp
    cases hx
    trivial

end MarketingSuite.Jobs.Serializer
