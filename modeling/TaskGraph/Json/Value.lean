import TaskGraph.Json.Number

namespace TaskGraph.Json

/-- A JSON value. An object that is made or read here goes through `insertField`, which keeps its
    fields in the order of their keys and no key twice. -/
inductive Value where
  | null
  | bool (b : Bool)
  | num (n : Number)
  | str (s : String)
  | arr (items : List Value)
  | obj (fields : List (String × Value))

/-- A list of fields sorted by key, with the value at `key` put in or replaced. -/
def insertField {α : Type} (key : String) (value : α) : List (String × α) → List (String × α)
  | [] => [(key, value)]
  | (k, v) :: rest =>
    if key < k then (key, value) :: (k, v) :: rest
    else if key = k then (key, value) :: rest
    else (k, v) :: insertField key value rest

/-- The key leads to the new value and every other key where it led before. -/
@[simp] theorem lookup_insertField {α : Type} (key k : String) (value : α)
    (fields : List (String × α)) :
    (insertField key value fields).lookup k = if k = key then some value else fields.lookup k := by
  induction fields with
  | nil => grind [insertField]
  | cons field rest ih => grind [insertField]

/-- Fields in strictly rising order of their keys. -/
def SortedKeys {α : Type} (fields : List (String × α)) : Prop :=
  fields.Pairwise fun f g => f.1 < g.1

theorem mem_insertField {α : Type} {key : String} {value : α} {fields : List (String × α)}
    {f : String × α} (h : f ∈ insertField key value fields) : f = (key, value) ∨ f ∈ fields := by
  induction fields with
  | nil => grind [insertField]
  | cons field rest ih => grind [insertField]

/-- Putting in a field keeps the order, and with it the keys apart. -/
theorem sortedKeys_insertField {α : Type} {fields : List (String × α)} (h : SortedKeys fields)
    (key : String) (value : α) : SortedKeys (insertField key value fields) := by
  induction fields with
  | nil => simp [insertField, SortedKeys]
  | cons field rest ih =>
    obtain ⟨hhead, hrest⟩ := List.pairwise_cons.1 h
    simp only [insertField]
    split
    · next hlt =>
      refine List.pairwise_cons.2 ⟨fun f hf => ?_, h⟩
      rcases List.mem_cons.1 hf with rfl | hf
      · exact hlt
      · exact String.lt_trans hlt (hhead f hf)
    · next hnot =>
      split
      · next heq => exact List.pairwise_cons.2 ⟨fun f hf => heq ▸ hhead f hf, hrest⟩
      · next hne =>
        refine List.pairwise_cons.2 ⟨fun f hf => ?_, ih hrest⟩
        rcases mem_insertField hf with rfl | hf
        · exact Decidable.byContradiction fun hle => hne (String.le_antisymm hle hnot)
        · exact hhead f hf

namespace Value

instance : Inhabited Value := ⟨.null⟩

/-- The object with these fields; of several fields with one key the last counts. -/
def ofFields (fields : List (String × Value)) : Value :=
  .obj (fields.foldl (fun acc f => insertField f.1 f.2 acc) [])

/-- The array of these texts. -/
def ofTexts (texts : List String) : Value := .arr (texts.map .str)

/-- The field of an object; there is none in any other value. -/
def get? (v : Value) (key : String) : Option Value :=
  match v with
  | .obj fields => fields.lookup key
  | _ => none

/-- The value reached through the fields of nested objects. -/
def at? (v : Value) (path : List String) : Option Value := path.foldlM get? v

def str? : Value → Option String
  | .str s => some s
  | _ => none

def arr? : Value → Option (List Value)
  | .arr items => some items
  | _ => none

def obj? : Value → Option (List (String × Value))
  | .obj fields => some fields
  | _ => none

/-- Whether no null occurs in the value, at any depth. -/
def isNullFree : Value → Bool
  | .null => false
  | .arr items => itemsNullFree items
  | .obj fields => fieldsNullFree fields
  | _ => true
where
  /-- Whether no null occurs in the items. -/
  itemsNullFree : List Value → Bool
    | [] => true
    | v :: vs => v.isNullFree && itemsNullFree vs
  /-- Whether no null occurs in the values of the fields. -/
  fieldsNullFree : List (String × Value) → Bool
    | [] => true
    | (_, v) :: fs => v.isNullFree && fieldsNullFree fs

mutual

/-- Equality of values is decidable. -/
def decEq : (a b : Value) → Decidable (a = b)
  | .null, .null => isTrue rfl
  | .bool a, .bool b => decidable_of_iff (a = b) (by simp)
  | .num a, .num b => decidable_of_iff (a = b) (by simp)
  | .str a, .str b => decidable_of_iff (a = b) (by simp)
  | .arr a, .arr b =>
    have := decEqItems a b
    decidable_of_iff (a = b) (by simp)
  | .obj a, .obj b =>
    have := decEqFields a b
    decidable_of_iff (a = b) (by simp)
  | .null, .bool _ | .null, .num _ | .null, .str _ | .null, .arr _ | .null, .obj _
  | .bool _, .null | .bool _, .num _ | .bool _, .str _ | .bool _, .arr _ | .bool _, .obj _
  | .num _, .null | .num _, .bool _ | .num _, .str _ | .num _, .arr _ | .num _, .obj _
  | .str _, .null | .str _, .bool _ | .str _, .num _ | .str _, .arr _ | .str _, .obj _
  | .arr _, .null | .arr _, .bool _ | .arr _, .num _ | .arr _, .str _ | .arr _, .obj _
  | .obj _, .null | .obj _, .bool _ | .obj _, .num _ | .obj _, .str _ | .obj _, .arr _ =>
    isFalse (by simp)

/-- Equality of lists of items is decidable. -/
def decEqItems : (a b : List Value) → Decidable (a = b)
  | [], [] => isTrue rfl
  | [], _ :: _ | _ :: _, [] => isFalse (by simp)
  | a :: as, b :: bs =>
    have := decEq a b
    have := decEqItems as bs
    decidable_of_iff (a = b ∧ as = bs) (by simp)

/-- Equality of lists of fields is decidable. -/
def decEqFields : (a b : List (String × Value)) → Decidable (a = b)
  | [], [] => isTrue rfl
  | [], _ :: _ | _ :: _, [] => isFalse (by simp)
  | (k, a) :: as, (l, b) :: bs =>
    have := decEq a b
    have := decEqFields as bs
    decidable_of_iff ((k = l ∧ a = b) ∧ as = bs) (by simp)

end

instance : DecidableEq Value := decEq

end Value

end TaskGraph.Json
