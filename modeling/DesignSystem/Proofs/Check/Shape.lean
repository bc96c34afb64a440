import DesignSystem.Check.Basic
import DesignSystem.Proofs.Dict
import DesignSystem.Proofs.Text.Basic

/-! # Shapes of documents

Shapes are predicates that say which documents there are, without a walk and without pointers.

* `Fields.Has`, `Fields.May`, `Fields.Only`, `Fields.Each`: what holds of the fields of an object.
* `Json.IsText`, `Json.IsWord`, `Json.IsObject`, `Json.IsArray`, …: what holds of a document.
* `Check.Decides`, `Check.DecidesInside`: a check finds no issue in exactly the parts of a shape.
* `Check.Decides.optional`, `Check.DecidesInside.object`, …: the shapes of composed checks.
-/

namespace DesignSystem
set_option autoImplicit false

/-! ## Shapes -/

namespace Fields

/-- The field is there, with a value of a shape. -/
def Has (fields : Fields) (name : String) (shape : Json → Prop) : Prop :=
  ∃ part, fields.get? name = some part ∧ shape part

/-- If the field is there, its value is of a shape; null counts as there. -/
def May (fields : Fields) (name : String) (shape : Json → Prop) : Prop :=
  ∀ part, fields.get? name = some part → shape part

def Only (fields : Fields) (names : List String) : Prop := ∀ field ∈ fields, field.1 ∈ names

def Each (fields : Fields) (shape : Json → Prop) : Prop := ∀ field ∈ fields, shape field.2

variable {fields : Fields} {name : String} {shape : Json → Prop}

theorem has_iff_get? : fields.has name = true ↔ ∃ part, fields.get? name = some part := by
  rw [Fields.has, Option.isSome_iff_exists]

theorem has_iff_mem : fields.has name = true ↔ name ∈ fields.map Prod.fst :=
  lookup_isSome fields name

theorem Has.has (h : fields.Has name shape) : fields.has name = true := by
  obtain ⟨part, found, -⟩ := h
  exact has_iff_get?.mpr ⟨part, found⟩

theorem Has.mono (h : fields.Has name shape) {weaker : Json → Prop}
    (weaken : ∀ part, shape part → weaker part) : fields.Has name weaker := by
  obtain ⟨part, found, holds⟩ := h
  exact ⟨part, found, weaken part holds⟩

theorem Has.may (h : fields.Has name shape) : fields.May name shape := by
  obtain ⟨part, found, holds⟩ := h
  intro other foundOther
  rw [found] at foundOther
  cases foundOther
  exact holds

theorem has_and_may : fields.has name = true ∧ fields.May name shape ↔ fields.Has name shape := by
  constructor
  · rintro ⟨there, may⟩
    obtain ⟨part, found⟩ := has_iff_get?.mp there
    exact ⟨part, found, may part found⟩
  · intro h
    exact ⟨h.has, h.may⟩

theorem Only.get?_eq_none {names : List String} (h : fields.Only names) (other : name ∉ names) :
    fields.get? name = none := by
  cases found : fields.get? name with
  | none => rfl
  | some part =>
    obtain ⟨field, mem, rfl⟩ := List.mem_map.mp (has_iff_mem.mp (has_iff_get?.mpr ⟨part, found⟩))
    exact absurd (h field mem) other

end Fields

namespace Json

def IsText (document : Json) : Prop := ∃ text, document = .string text

def IsTruth (document : Json) : Prop := ∃ value, document = .bool value

@[simp] theorem isWord_string (word text : String) :
    (string text).isWord word = (text == word) := by
  rw [Bool.eq_iff_iff]
  simp [isWord]

/-- A word of a vocabulary. -/
def IsWord (α : Type) [Vocabulary α] (document : Json) : Prop :=
  ∃ member ∈ (Vocabulary.members : List α), document = .string (Vocabulary.word member)

def IsObject (shape : Fields → Prop) (document : Json) : Prop :=
  ∃ fields, document = .object fields ∧ shape fields

def IsArray (shape : Json → Prop) (document : Json) : Prop :=
  ∃ items, document = .array items ∧ ∀ item ∈ items, shape item

end Json

/-! ## What checks decide -/

namespace Check

/-- A check finds no issue in exactly the parts of a shape. -/
def Decides (check : Pointer → Json → List Issue) (shape : Json → Prop) : Prop :=
  ∀ pointer part, check pointer part = [] ↔ shape part

/-- A check of the inside of an object finds no issue in exactly the fields of a shape. -/
def DecidesInside (inside : Pointer → Fields → List Issue) (shape : Fields → Prop) : Prop :=
  ∀ pointer fields, inside pointer fields = [] ↔ shape fields

theorem string_decides : Decides string Json.IsText := by
  intro pointer part
  cases part <;> simp [string, Json.isString, Json.IsText]

theorem boolean_decides : Decides boolean Json.IsTruth := by
  intro pointer part
  cases part <;> simp [boolean, Json.isBool, Json.IsTruth]

theorem member_decides (α : Type) [Vocabulary α] : Decides (member α) (Json.IsWord α) := by
  intro pointer part
  cases part with
  | string word =>
    have listed : word.string?.any (Vocabulary.words α).contains = true ↔
        Json.IsWord α (.string word) := by
      simp only [Text.any_string?, List.contains_iff_mem, Vocabulary.words, List.mem_map,
        Json.IsWord, Json.string.injEq]
      constructor
      · rintro ⟨_, rfl, member, mem, rfl⟩
        exact ⟨member, mem, rfl⟩
      · rintro ⟨member, mem, rfl⟩
        exact ⟨_, rfl, member, mem, rfl⟩
    simp [member, listed]
  | _ => simp [member, Json.IsWord]

variable {check : Pointer → Json → List Issue} {shape : Json → Prop}
  {inside others : Pointer → Fields → List Issue} {holds holdsToo : Fields → Prop}

theorem Decides.optional (h : Decides check shape) (name : String) :
    DecidesInside (optional name check) fun fields => fields.May name shape := by
  intro pointer fields
  change _ ↔ fields.May name shape
  unfold Check.optional Fields.May
  cases fields.get? name with
  | none => simp
  | some part => simpa using h _ part

theorem Decides.entries (h : Decides check shape) :
    DecidesInside (entries check) fun fields => fields.Each shape := by
  intro pointer fields
  simp only [Check.entries, List.flatMap_eq_nil_iff, Fields.Each, h _ _]

theorem closed_decides (known : List String) :
    DecidesInside (closed known) fun fields => fields.Only known := by
  intro pointer fields
  simp [closed, Fields.Only]

theorem DecidesInside.append (first : DecidesInside inside holds)
    (second : DecidesInside others holdsToo) :
    DecidesInside (fun pointer fields => inside pointer fields ++ others pointer fields)
      fun fields => holds fields ∧ holdsToo fields := by
  intro pointer fields
  rw [List.append_eq_nil_iff, first pointer fields, second pointer fields]

theorem DecidesInside.object (h : DecidesInside inside holds) {required : List String}
    {whole : Fields → Prop}
    (iff : ∀ fields : Fields,
      (∀ name ∈ required, fields.has name = true) ∧ holds fields ↔ whole fields) :
    Decides (object required inside) (Json.IsObject whole) := by
  intro pointer part
  cases part with
  | object fields =>
    have present : required.filter (!Fields.has fields ·) = [] ↔
        ∀ name ∈ required, Fields.has fields name = true := by
      simp [List.filter_eq_nil_iff]
    simp only [Check.object, List.append_eq_nil_iff, List.map_eq_nil_iff, present,
      h pointer fields, iff, Json.IsObject, Json.object.injEq, exists_eq_left']
  | _ => simp [Check.object, Json.IsObject]

theorem anyObject_decides : Decides anyObject (Json.IsObject fun _ => True) := by
  have inside : DecidesInside (fun _ _ => []) fun _ => True := fun _ _ => by simp
  exact inside.object (by simp)

theorem Decides.dictionary (h : Decides check shape) :
    Decides (object [] (Check.entries check)) (Json.IsObject (Fields.Each · shape)) :=
  h.entries.object (by simp)

theorem Decides.items (h : Decides check shape) (least : Nat) :
    Decides (array least (items check)) fun part =>
      ∃ items, part = .array items ∧ least ≤ items.length ∧ ∀ item ∈ items, shape item := by
  intro pointer part
  cases part with
  | array items =>
    have each : Check.items check pointer items = [] ↔ ∀ item ∈ items, shape item := by
      rw [Check.items, List.flatMap_eq_nil_iff]
      simp only [h _ _]
      constructor
      · intro all item mem
        obtain ⟨position, lt, rfl⟩ := List.mem_iff_getElem.mp mem
        exact all (items[position], position) (by simp [List.mem_zipIdx_iff_getElem?, lt])
      · intro all entry mem
        exact all entry.1 (List.fst_mem_of_mem_zipIdx mem)
    simp [Check.array, each]
  | _ => simp [Check.array]

theorem Decides.array (h : Decides check shape) :
    Decides (array 0 (Check.items check)) (Json.IsArray shape) := by
  intro pointer part
  rw [h.items 0 pointer part]
  simp [Json.IsArray]

end Check
end DesignSystem
