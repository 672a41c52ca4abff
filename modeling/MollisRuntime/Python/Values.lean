import Mathlib.Data.Rat.Defs
import MollisRuntime.Library.OrderedDict

/-!
Python values as the persistence layer sees them, and the exceptions the
modelled code raises. A dictionary value has string keys. `float` is a finite
float and `infinity` one of the two infinite ones. `enum` is a member of an Enum
class and `object` any other instance; json.dumps refuses both. JSON text is
represented by the value it denotes, so json.loads is the identity.
-/
namespace MollisRuntime.Python

open Ordered

inductive PyError
  | keyError (key : String)
  | valueError (message : String)
  | typeError (message : String)
  | overflowError (message : String)
  /-- Whatever `scheduler.schedule` raised: an admission or a queue error. -/
  | schedulingError (message : String)
  /-- Not an exception: the call does not return. -/
  | diverges
  deriving DecidableEq, Repr

section Except
variable {ε α β : Type}

@[simp] theorem ok_bind (a : α) (f : α → Except ε β) : (Except.ok a >>= f) = f a := rfl

@[simp] theorem error_bind (e : ε) (f : α → Except ε β) :
    (Except.error e >>= f) = .error e := rfl

@[simp] theorem map_ok (f : α → β) (a : α) : (f <$> (Except.ok a : Except ε α)) = .ok (f a) := rfl

theorem bind_eq_ok {x : Except ε α} {f : α → Except ε β} {b : β} (h : (x >>= f) = .ok b) :
    ∃ a, x = .ok a ∧ f a = .ok b := by
  cases x with
  | error e => cases h
  | ok a => exact ⟨a, rfl, h⟩

theorem bind_returns_iff {x : Except ε α} {f : α → Except ε β} :
    (∃ b, (x >>= f) = .ok b) ↔ ∃ a, x = .ok a ∧ ∃ b, f a = .ok b := by
  cases x with
  | error e => simp
  | ok a => simp

end Except

inductive Value
  | none
  | bool (b : Bool)
  | int (n : ℤ)
  | float (q : ℚ)
  | infinity (negative : Bool)
  | str (s : String)
  | list (xs : List Value)
  | dict (entries : List (String × Value))
  | enum (cls member : String)
  | object (cls : String)

/-- A dictionary with arbitrary values under string keys: Dict[str, Any]. -/
abbrev Attrs := Dict String Value

namespace Value

mutual
/-- What json.dumps accepts. -/
def isJson : Value → Bool
  | .list xs => jsonItems xs
  | .dict entries => jsonEntries entries
  | .enum _ _ => false
  | .object _ => false
  | _ => true

def jsonItems : List Value → Bool
  | [] => true
  | v :: rest => v.isJson && jsonItems rest

def jsonEntries : List (String × Value) → Bool
  | [] => true
  | (_, v) :: rest => v.isJson && jsonEntries rest
end

theorem jsonItems_iff (xs : List Value) : jsonItems xs = true ↔ ∀ v ∈ xs, v.isJson = true := by
  induction xs with
  | nil => simp [jsonItems]
  | cons v rest ih => simp [jsonItems, ih]

theorem jsonEntries_iff (entries : List (String × Value)) :
    jsonEntries entries = true ↔ ∀ e ∈ entries, e.2.isJson = true := by
  induction entries with
  | nil => simp [jsonEntries]
  | cons e rest ih => simp [jsonEntries, ih]

@[simp] theorem isJson_none : Value.none.isJson = true := rfl
@[simp] theorem isJson_bool (b : Bool) : (Value.bool b).isJson = true := rfl
@[simp] theorem isJson_int (n : ℤ) : (Value.int n).isJson = true := rfl
@[simp] theorem isJson_float (q : ℚ) : (Value.float q).isJson = true := rfl
@[simp] theorem isJson_str (s : String) : (Value.str s).isJson = true := rfl
@[simp] theorem isJson_enum (c m : String) : (Value.enum c m).isJson = false := rfl

@[simp] theorem isJson_list (xs : List Value) :
    (Value.list xs).isJson = true ↔ ∀ v ∈ xs, v.isJson = true :=
  jsonItems_iff xs

@[simp] theorem isJson_dict (entries : List (String × Value)) :
    (Value.dict entries).isJson = true ↔ ∀ e ∈ entries, e.2.isJson = true :=
  jsonEntries_iff entries

/-- Python's truth value, for the values whose truth the code asks. -/
def truthy : Value → Bool
  | .none => false
  | .bool b => b
  | .int n => decide (n ≠ 0)
  | .float q => decide (q ≠ 0)
  | .infinity _ => true
  | .str s => decide (s ≠ "")
  | .list xs => !xs.isEmpty
  | .dict entries => !entries.isEmpty
  | .enum _ _ => true
  | .object _ => true

section Reading

def asStr : Value → Except PyError String
  | .str s => .ok s
  | _ => .error (.typeError "expected str")

def asOptStr : Value → Except PyError (Option String)
  | .none => .ok Option.none
  | .str s => .ok (some s)
  | _ => .error (.typeError "expected Optional[str]")

def asBool : Value → Except PyError Bool
  | .bool b => .ok b
  | _ => .error (.typeError "expected bool")

def asInt : Value → Except PyError ℤ
  | .int n => .ok n
  | _ => .error (.typeError "expected int")

def asFloat : Value → Except PyError ℚ
  | .float q => .ok q
  | .int n => .ok n
  | _ => .error (.typeError "expected float")

def asOptFloat : Value → Except PyError (Option ℚ)
  | .none => .ok Option.none
  | v => do return some (← v.asFloat)

def asList : Value → Except PyError (List Value)
  | .list xs => .ok xs
  | _ => .error (.typeError "expected list")

def asDict : Value → Except PyError (List (String × Value))
  | .dict entries => .ok entries
  | _ => .error (.typeError "expected dict")

end Reading

end Value

/-- `data[key]` -/
def getItem (data : List (String × Value)) (key : String) : Except PyError Value :=
  match lookup key data with
  | some v => .ok v
  | none => .error (.keyError key)

/-- `data.get(key, default)` -/
def getD (data : List (String × Value)) (key : String) (default : Value) : Value :=
  (lookup key data).getD default

/-- Keyword arguments outside the parameters of the called constructor. -/
def checkKwargs (params : List String) (data : List (String × Value)) : Except PyError Unit :=
  if data.all fun e => params.contains e.1 then .ok ()
  else .error (.typeError "unexpected keyword argument")

/-- json.dumps, and json.loads on its result. -/
def jsonPayload (data : Value) : Except PyError Value :=
  if data.isJson then .ok data
  else .error (.typeError "Object is not JSON serializable")

section Containers
variable {α : Type}

def encodeList (enc : α → Value) (xs : List α) : Value := .list (xs.map enc)

def decodeList (dec : Value → Except PyError α) (v : Value) : Except PyError (List α) := do
  let xs ← v.asList
  xs.mapM dec

def encodeDict (enc : α → Value) (d : Dict String α) : Value :=
  .dict (d.entries.map fun e => (e.1, enc e.2))

def decodeEntry (dec : Value → Except PyError α) (e : String × Value) :
    Except PyError (String × α) := do
  let v ← dec e.2
  return (e.1, v)

def decodeDict (dec : Value → Except PyError α) (v : Value) :
    Except PyError (Dict String α) := do
  let raw ← v.asDict
  let entries ← raw.mapM (decodeEntry dec)
  return Dict.ofList entries

def encodeAttrs (d : Attrs) : Value := .dict d.entries

def decodeAttrs (v : Value) : Except PyError Attrs := do
  return Dict.ofList (← v.asDict)

theorem mapM_encode {γ : Type} (f : γ → Except PyError α) (g : α → γ)
    (h : ∀ a, f (g a) = .ok a) (xs : List α) : (xs.map g).mapM f = .ok xs := by
  induction xs with
  | nil => rfl
  | cons x rest ih =>
    simp only [List.map_cons, List.mapM_cons, h x, ih]
    rfl

theorem decodeList_encodeList (enc : α → Value) (dec : Value → Except PyError α)
    (h : ∀ a, dec (enc a) = .ok a) (xs : List α) :
    decodeList dec (encodeList enc xs) = .ok xs :=
  mapM_encode dec enc h xs

theorem decodeDict_encodeDict (enc : α → Value) (dec : Value → Except PyError α)
    (h : ∀ a, dec (enc a) = .ok a) (d : Dict String α) :
    decodeDict dec (encodeDict enc d) = .ok d := by
  have hentry : ∀ e : String × α, decodeEntry dec (e.1, enc e.2) = .ok e := by
    intro e
    simp only [decodeEntry, h e.2]
    rfl
  have hmap := mapM_encode (decodeEntry dec) (fun e : String × α => (e.1, enc e.2)) hentry d.entries
  change ((d.entries.map fun e => (e.1, enc e.2)).mapM (decodeEntry dec)).bind
    (fun entries => Except.ok (Dict.ofList entries)) = _
  rw [hmap]
  exact congrArg Except.ok (Dict.ofList_entries d)

theorem decodeAttrs_encodeAttrs (d : Attrs) : decodeAttrs (encodeAttrs d) = .ok d := by
  change Except.ok (Dict.ofList d.entries) = _
  rw [Dict.ofList_entries]

@[simp] theorem isJson_encodeList (enc : α → Value) (xs : List α) :
    (encodeList enc xs).isJson = true ↔ ∀ a ∈ xs, (enc a).isJson = true := by
  simp [encodeList]

@[simp] theorem isJson_encodeDict (enc : α → Value) (d : Dict String α) :
    (encodeDict enc d).isJson = true ↔ ∀ e ∈ d.entries, (enc e.2).isJson = true := by
  constructor
  · intro h e he
    exact (Value.isJson_dict _).mp h (e.1, enc e.2) (List.mem_map_of_mem he)
  · intro h
    apply (Value.isJson_dict _).mpr
    intro e he
    obtain ⟨a, ha, rfl⟩ := List.mem_map.mp he
    exact h a ha

@[simp] theorem isJson_encodeAttrs (d : Attrs) :
    (encodeAttrs d).isJson = true ↔ ∀ e ∈ d.entries, e.2.isJson = true :=
  Value.isJson_dict d.entries

theorem jsonPayload_ok {data : Value} (h : data.isJson = true) : jsonPayload data = .ok data := by
  simp [jsonPayload, h]

theorem jsonPayload_eq_ok_iff (data v : Value) :
    jsonPayload data = .ok v ↔ data.isJson = true ∧ v = data := by
  unfold jsonPayload
  split
  · rename_i h
    simp [h, eq_comm]
  · rename_i h
    simp [h]

end Containers

end MollisRuntime.Python
