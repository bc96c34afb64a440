import DesignSystem.Proofs.Json.Readable
import DesignSystem.Proofs.Model.Written

/-! # Models that are read as they are written

A model is written field by field, each field under the first of its names, and then what it does
not declare. What is written is found again.

* `Layout`: what is written of each field of a model.
* `Layout.Beside`: extra fields that are told from those of a layout.
* `Layout.find?_fields`, `Layout.extras_fields`: the fields and the extra fields are found again.
* `Decoded.Restores`: what is written of a value is decoded, as this value or another one.
* `Layout.Written`: the fields of an object are those of a layout; `Layout.Written.required`,
  `Layout.Written.optional`, …: the fields of the model that are decoded.
-/

namespace DesignSystem
set_option autoImplicit false

open Json

/-! ## Free documents -/

namespace Encoded

theorem free_eq_self {document : Json} (finite : document.Finite) : free document = document := by
  induction finite with
  | null | bool | int | string => rfl
  | float x finite => rw [free, if_pos finite]
  | array items _ ih => rw [free, freeItems_eq_map, List.map_congr_left ih, List.map_id']
  | object fields _ ih =>
    rw [free, freeFields_eq_map]
    congr 1
    conv => rhs; rw [← List.map_id fields]
    exact List.map_congr_left fun field mem => Prod.ext rfl (ih field mem)

theorem free_storable {document : Json} (storable : document.Storable) :
    (free document).Storable := by
  rwa [free_eq_self (storable_iff.mp storable).2]

end Encoded

/-- The fields that are not null. -/
def Fields.present (fields : Fields) : Fields := fields.filter (!·.2.isNull)

theorem Encoded.extras_eq_present {fields : Fields} (finite : ∀ field ∈ fields, field.2.Finite) :
    Encoded.extras fields = fields.present := by
  rw [extras, freeFields_eq_map, ← Fields.present]
  conv => rhs; rw [← List.map_id fields.present]
  exact List.map_congr_left fun field mem =>
    Prod.ext rfl (free_eq_self (finite field (List.mem_of_mem_filter mem)))

theorem Encoded.extras_present (fields : Fields) :
    Encoded.extras fields.present = Encoded.extras fields := by
  simp [extras, Fields.present, List.filter_filter]

/-! ## Layouts -/

/-- For each field of a model, the names that it goes by and what is written of it, if anything. -/
abbrev Layout := List (List String × Option Json)

namespace Layout

def names (layout : Layout) : List (List String) := layout.map Prod.fst

/-- What is written of a field. -/
def field (entry : List String × Option Json) : Fields :=
  (entry.2.map (entry.1.headD "", ·)).toList

/-- The fields that are written, each under the first of its names. -/
def fields (layout : Layout) : Fields := layout.flatMap field

/-- Names of fields, none of which is the name of another one. -/
structure Apart (declared : List (List String)) : Prop where
  named : [] ∉ declared
  distinct : declared.flatten.Nodup

/-- Extra fields may have the name of a field only if it is written under another name, its first
one. -/
def Beside (layout : Layout) (extras : Fields) : Prop :=
  ∀ entry ∈ layout, ∀ name ∈ entry.1, name ∈ extras.map Prod.fst →
    entry.1.head? ≠ some name ∧ entry.2.isSome = true

theorem mem_field {entry : List String × Option Json} {written : String × Json} :
    written ∈ field entry ↔ entry.1.headD "" = written.1 ∧ entry.2 = some written.2 := by
  obtain ⟨names, part⟩ := entry
  cases part with
  | none => simp [field]
  | some part => simp [field, Prod.ext_iff, eq_comm]

variable {layout : Layout} {extras : Fields}

section
variable (apart : Apart layout.names)

include apart

theorem head_mem {entry : List String × Option Json} (mem : entry ∈ layout) :
    entry.1.headD "" ∈ entry.1 ∧ entry.1.head? = some (entry.1.headD "") := by
  obtain ⟨_ | ⟨head, others⟩, part⟩ := entry
  · exact absurd (List.mem_map_of_mem mem) apart.named
  · exact ⟨List.mem_cons_self, rfl⟩

/-- A name is that of one field at most. -/
theorem entry_unique {first second : List String × Option Json} (here : first ∈ layout)
    (there : second ∈ layout) {name : String} (mem : name ∈ first.1) (also : name ∈ second.1) :
    first = second := by
  have pairwise := (List.nodup_flatten.mp apart.distinct).2
  rw [names, List.pairwise_map] at pairwise
  have symmetric : Std.Symm fun a b : List String × Option Json => List.Disjoint a.1 b.1 :=
    ⟨fun _ _ disjoint => disjoint.symm⟩
  by_contra differ
  exact pairwise.forall here there differ mem also

theorem fields_names_sublist : (layout.fields.map Prod.fst).Sublist (layout.names.flatten) := by
  have named := apart.named
  clear apart
  induction layout with
  | nil => exact .slnil
  | cons entry layout ih =>
    obtain ⟨_ | ⟨head, others⟩, part⟩ := entry
    · exact absurd List.mem_cons_self named
    · have rest := ih fun mem => named (List.mem_cons_of_mem _ mem)
      rw [fields, List.flatMap_cons, List.map_append, names, List.map_cons, List.flatten_cons]
      refine List.Sublist.append ?_ rest
      cases part <;> simp [field]

theorem fields_nodup : (layout.fields.map Prod.fst).Nodup :=
  (fields_names_sublist apart).nodup apart.distinct

/-- Every field is found if it is written. -/
theorem find?_fields (beside : layout.Beside extras) {entry : List String × Option Json}
    (mem : entry ∈ layout) :
    Decoded.find? entry.1 (layout.fields ++ extras) = entry.2.map (entry.1.headD "", ·) := by
  obtain ⟨_ | ⟨head, rest⟩, part⟩ := entry
  · exact absurd (List.mem_map_of_mem mem) apart.named
  cases part with
  | some part =>
    have written : (head, part) ∈ layout.fields :=
      List.mem_flatMap.mpr ⟨_, mem, mem_field.mpr ⟨rfl, rfl⟩⟩
    refine Decoded.find?_of_get? ?_
    rw [Fields.get?, List.lookup_append, lookup_of_mem (fields_nodup apart) written]
    rfl
  | none =>
    simp only [Decoded.find?, List.findSome?_eq_none_iff, Option.map_none,
      Option.map_eq_none_iff]
    intro name named
    rw [Fields.get?, ← Option.not_isSome_iff_eq_none, Bool.not_eq_true, ← Bool.not_eq_true,
      lookup_isSome, List.map_append, List.mem_append]
    rintro (written | extra)
    · obtain ⟨field, listed, rfl⟩ := List.mem_map.mp written
      obtain ⟨entry, there, isField⟩ := List.mem_flatMap.mp listed
      obtain ⟨same, some⟩ := mem_field.mp isField
      cases entry_unique apart mem there named (same ▸ (head_mem apart there).1)
      cases some
    · cases (beside _ mem name named extra).2

/-- What is not a field is left as extra fields. -/
theorem extras_fields (beside : layout.Beside extras) :
    Decoded.extras layout.names (layout.fields ++ extras) = extras := by
  have taken : ∀ name, name ∈ layout.names.filterMap (fun names =>
      (Decoded.find? names (layout.fields ++ extras)).map Prod.fst) ↔
        name ∈ layout.fields.map Prod.fst := by
    intro name
    simp only [names, List.mem_filterMap, List.mem_map, exists_exists_and_eq_and]
    constructor
    · rintro ⟨entry, mem, found⟩
      rw [find?_fields apart beside mem, Option.map_map, Option.map_eq_some_iff] at found
      obtain ⟨part, some, rfl⟩ := found
      exact ⟨(_, part), List.mem_flatMap.mpr ⟨entry, mem, mem_field.mpr ⟨rfl, some⟩⟩, rfl⟩
    · rintro ⟨field, listed, rfl⟩
      obtain ⟨entry, mem, isField⟩ := List.mem_flatMap.mp listed
      obtain ⟨same, some⟩ := mem_field.mp isField
      exact ⟨entry, mem, by rw [find?_fields apart beside mem, some, ← same]; rfl⟩
  have free : ∀ field ∈ extras, field.1 ∉ layout.fields.map Prod.fst := by
    intro field mem written
    obtain ⟨other, listed, same⟩ := List.mem_map.mp written
    obtain ⟨entry, there, isField⟩ := List.mem_flatMap.mp listed
    obtain ⟨head, -⟩ := mem_field.mp isField
    have named := head_mem apart there
    rw [head, same] at named
    exact (beside entry there _ named.1 (List.mem_map_of_mem mem)).1 named.2
  unfold Decoded.extras
  simp only [List.contains_eq_mem, taken]
  rw [List.filter_append, List.filter_eq_nil_iff.mpr, List.filter_eq_self.mpr, List.nil_append]
  · exact fun field mem => by simpa using free field mem
  · exact fun field mem => by simpa using ⟨field.2, mem⟩

/-- The fields that are written with what is beside them can be put on disk if all of them can. -/
theorem storable_fields (beside : layout.Beside extras)
    (each : ∀ entry ∈ layout, ∀ part ∈ entry.2, part.Storable)
    (storable : (object extras).Storable) : (object (layout.fields ++ extras)).Storable := by
  refine storable_cumulative.object ?_ (List.forall_mem_append.mpr ⟨?_, ?_⟩)
  · rw [List.map_append]
    refine (fields_nodup apart).append storable.1.names fun name written extra => ?_
    obtain ⟨field, listed, rfl⟩ := List.mem_map.mp written
    obtain ⟨entry, there, isField⟩ := List.mem_flatMap.mp listed
    obtain ⟨same, -⟩ := mem_field.mp isField
    have named := head_mem apart there
    rw [same] at named
    exact (beside entry there _ named.1 extra).1 named.2
  · intro field mem
    obtain ⟨entry, there, isField⟩ := List.mem_flatMap.mp mem
    exact each entry there _ (mem_field.mp isField).2
  · exact storable_cumulative.field storable

end

/-! ## Extra fields that decoding leaves -/

/-- What decoding leaves as extra fields is beside the fields, if no field is absent that is there
under another name. -/
theorem beside_extras {declared : List (List String)} {fields : Fields}
    (same : layout.names = declared)
    (others : ∀ entry ∈ layout, entry.2 = none → ∀ other ∈ entry.1.tail,
      other ∉ (Decoded.extras declared fields).map Prod.fst) :
    layout.Beside (Decoded.extras declared fields) := by
  subst same
  intro entry mem name named extra
  have notFirst : entry.1.head? ≠ some name := by
    obtain ⟨_ | ⟨head, rest⟩, part⟩ := entry
    · cases named
    · intro first
      cases first
      have declared : name :: rest ∈ layout.names := List.mem_map_of_mem mem
      exact Encoded.not_mem_extras declared fields extra
  refine ⟨notFirst, ?_⟩
  by_contra absent
  rw [Option.not_isSome_iff_eq_none] at absent
  obtain ⟨_ | ⟨head, rest⟩, part⟩ := entry
  · cases named
  · rcases List.mem_cons.mp named with rfl | later
    · exact notFirst rfl
    · exact others _ mem absent name later extra

theorem Beside.present (beside : layout.Beside extras) : layout.Beside extras.present :=
  fun entry mem name named extra => beside entry mem name named
    ((List.filter_sublist.map Prod.fst).subset extra)

end Layout

theorem Fields.present_storable {extras : Fields} (storable : (object extras).Storable) :
    (object extras.present).Storable :=
  storable_cumulative.object ((List.filter_sublist.map Prod.fst).nodup storable.1.names)
    fun field mem => storable_cumulative.field storable field (List.mem_of_mem_filter mem)

theorem Decoded.extras_storable {declared : List (List String)} {fields : Fields}
    (storable : (object fields).Storable) : (object (Decoded.extras declared fields)).Storable :=
  storable_cumulative.object ((List.filter_sublist.map Prod.fst).nodup storable.1.names)
    fun field mem => storable_cumulative.field storable field (List.mem_of_mem_filter mem)

/-- The other name of a field that decodes to nothing is not left as an extra field, if the field is
never null under its first name. -/
theorem Decoded.others_not_mem_extras {α : Type} {part : Pointer → Json → Decoded α}
    {encode : α → Json} {value : Option α} {shape : Json → Prop} {name other : String}
    {declared : List (List String)} {pointer : Pointer} {fields : Fields}
    (decodes : Decoded.optional [name, other] part pointer fields = .ok value)
    (mem : [name, other] ∈ declared) (may : fields.May name shape) (notNull : ¬ shape .null)
    (unwritten : value.map encode = none) :
    ∀ other' ∈ [name, other].tail, other' ∉ (Decoded.extras declared fields).map Prod.fst := by
  obtain rfl : value = none := Option.map_eq_none_iff.mp unwritten
  have absent : fields.get? name = none := by
    cases found : fields.get? name with
    | none => rfl
    | some document =>
      have present : document ≠ .null := fun null => notNull (null ▸ may document found)
      rw [Decoded.optional_of_get? found present] at decodes
      obtain ⟨value, -, some⟩ := Decoded.map_eq_ok.mp decodes
      cases some
  intro other' isOther extra
  obtain rfl : other' = other := List.mem_singleton.mp isOther
  obtain ⟨field, listed, rfl⟩ := List.mem_map.mp extra
  obtain ⟨there, free⟩ := List.mem_filter.mp listed
  obtain ⟨document, found⟩ := Option.isSome_iff_exists.mp
    ((lookup_isSome fields field.1).mpr (List.mem_map_of_mem there))
  replace found : fields.get? field.1 = some document := found
  have first : Decoded.find? [name, field.1] fields = some (field.1, document) := by
    simp [Decoded.find?, absent, found]
  have taken : field.1 ∈ declared.filterMap fun names =>
      (Decoded.find? names fields).map Prod.fst :=
    List.mem_filterMap.mpr ⟨_, mem, by rw [first]; rfl⟩
  simp [taken] at free

/-! ## What is restored -/

/-- The vocabulary lists all its members, and no two of them have one word. -/
structure Vocabulary.Lawful (α : Type) [Vocabulary α] : Prop where
  mem : ∀ value : α, value ∈ Vocabulary.members
  member? : ∀ value : α, Vocabulary.member? (Vocabulary.word value) = some value

theorem Vocabulary.Lawful.isWord {α : Type} [Vocabulary α] (lawful : Vocabulary.Lawful α)
    (value : α) : (Encoded.word value).IsWord α :=
  ⟨value, lawful.mem value, rfl⟩

theorem Vocabulary.Lawful.word_injective {α : Type} [Vocabulary α]
    (lawful : Vocabulary.Lawful α) {first second : α}
    (same : Vocabulary.word first = Vocabulary.word second) : first = second :=
  Option.some.inj ((lawful.member? first).symm.trans (same ▸ lawful.member? second))

namespace Decoded
variable {α : Type} {part : Pointer → Json → Decoded α} {encode : α → Json}

/-- What is written of a value is decoded as another value, wherever it is. -/
def Restores (part : Pointer → Json → Decoded α) (encode : α → Json) (value again : α) : Prop :=
  ∀ pointer, part pointer (encode value) = .ok again

theorem string_restores (text : Text) : Restores string Json.string text text := fun _ => rfl

theorem boolean_restores (value : Bool) : Restores boolean Json.bool value value := fun _ => rfl

theorem any_restores {document : Json} (finite : document.Finite) :
    Restores any Encoded.free document document := fun pointer => by
  rw [Encoded.free_eq_self finite, any]

theorem anyObject_restores {fields : Fields} (finite : (Json.object fields).Finite) :
    Restores anyObject (fun fields => Encoded.free (.object fields)) fields fields :=
  fun pointer => by
    change anyObject pointer (Encoded.free _) = _
    rw [Encoded.free_eq_self finite, anyObject]

theorem member_restores {α : Type} [Vocabulary α] (lawful : Vocabulary.Lawful α) (value : α) :
    Restores (member α) Encoded.word value value := fun pointer => by
  simp only [Decoded.member, Encoded.word, Text.string?_ofString, lawful.member? value]

/-- The items of an array are restored one by one. -/
theorem array_restores {values : List α} {again : α → α}
    (each : ∀ value ∈ values, Restores part encode value (again value)) :
    Restores (array part) (fun values => .array (values.map encode)) values (values.map again) := by
  intro pointer
  have placed : values.map again = values.zipIdx.map fun placed => again placed.1 := by
    conv => lhs; rw [← List.zipIdx_map_fst 0 values, List.map_map]
    rfl
  refine all_eq_ok_iff.mpr ?_
  rw [List.zipIdx_map, placed, List.forall₂_map_right_iff, List.forall₂_map_left_iff,
    List.forall₂_same]
  exact fun value mem => each value.1 (List.fst_mem_of_mem_zipIdx mem) _

/-- The entries of an object are restored one by one. -/
theorem dict_restores {values : Dict α} {again : α → α}
    (each : ∀ entry ∈ values.entries, Restores part encode entry.2 (again entry.2)) :
    Restores (dict part) (Encoded.dict encode) values (values.map again) := by
  intro pointer
  have entries : all ((values.entries.map fun entry => (entry.1, encode entry.2)).map fun field =>
      (part (pointer ++ [.field field.1]) field.2).map (field.1, ·)) =
        .ok (values.map again).entries := by
    rw [List.map_map]
    refine all_eq_ok_iff.mpr ?_
    rw [Dict.map, List.forall₂_map_left_iff, List.forall₂_same]
    intro entry mem
    simp only [Function.comp_apply, each entry mem _, map]
  rw [Encoded.dict, dict, entries]
  change Decoded.ok (Dict.ofList _) = _
  congr 1
  simp only [Dict.ofList, collect_eq_self (values.map again).distinct]

theorem array_restores_self {values : List α}
    (each : ∀ value ∈ values, Restores part encode value value) :
    Restores (array part) (fun values => .array (values.map encode)) values values := by
  have same : Restores (array part) (fun values => .array (values.map encode)) values
      (values.map id) := array_restores each
  rwa [List.map_id] at same

theorem dict_restores_self {values : Dict α}
    (each : ∀ value, Restores part encode value value) :
    Restores (dict part) (Encoded.dict encode) values values := by
  have same : Restores (dict part) (Encoded.dict encode) values (values.map id) :=
    dict_restores fun entry _ => each entry.2
  have unchanged : values.map id = values := by simp [Dict.map]
  rwa [unchanged] at same

end Decoded

/-! ## Fields that are restored -/

namespace Layout

/-- The fields of an object are those of a layout. -/
def Written (layout : Layout) (fields : Fields) : Prop :=
  ∀ entry ∈ layout, Decoded.find? entry.1 fields = entry.2.map (entry.1.headD "", ·)

namespace Written
open Decoded
variable {α : Type} {part : Pointer → Json → Decoded α} {encode : α → Json} {layout : Layout}
  {fields : Fields} {names : List String} {value again : α}

/-- The entry at a position of a layout is found. -/
theorem find? (written : layout.Written fields) {position : Nat} {document : Option Json}
    (entry : layout[position]? = some (names, document)) :
    Decoded.find? names fields = document.map (names.headD "", ·) :=
  written _ (List.mem_of_getElem? entry)

theorem required (written : layout.Written fields) (position : Nat)
    (restores : Restores part encode value again)
    (entry : layout[position]? = some (names, some (encode value))) (pointer : Pointer) :
    Decoded.required names part pointer fields = .ok again := by
  rw [Decoded.required, written.find? entry, Option.map_some]
  exact restores _

theorem defaulted (written : layout.Written fields) (position : Nat)
    (restores : Restores part encode value again)
    (entry : layout[position]? = some (names, some (encode value))) (default : α)
    (pointer : Pointer) :
    Decoded.defaulted names default part pointer fields = .ok again := by
  rw [Decoded.defaulted, written.find? entry, Option.map_some]
  exact restores _

theorem optional (written : layout.Written fields) {value : Option α} {again : α → α}
    (position : Nat) (entry : layout[position]? = some (names, value.map encode))
    (restores : ∀ found, value = some found → encode found ≠ .null ∧
      Restores part encode found (again found)) (pointer : Pointer) :
    Decoded.optional names part pointer fields = .ok (value.map again) := by
  rw [Decoded.optional, written.find? entry]
  cases value with
  | none => rfl
  | some found =>
    obtain ⟨present, restored⟩ := restores found rfl
    -- what is written of a value is not null, which would be taken for no value
    simp only [Option.map_some, restored _, Decoded.map]

/-- A field whose values are restored as they are. -/
theorem optional_self (written : layout.Written fields) {value : Option α}
    (position : Nat) (entry : layout[position]? = some (names, value.map encode))
    (restores : ∀ found, value = some found → encode found ≠ .null ∧
      Restores part encode found found) (pointer : Pointer) :
    Decoded.optional names part pointer fields = .ok value := by
  have same := written.optional position entry restores pointer
  rwa [Option.map_id'] at same

theorem text (written : layout.Written fields) {value : Option Text} (position : Nat)
    (entry : layout[position]? = some (names, value.map Json.string)) (pointer : Pointer) :
    Decoded.optional names string pointer fields = .ok value :=
  written.optional_self position entry
    (fun text _ => ⟨Json.noConfusion, string_restores text⟩) pointer

theorem word [Vocabulary α] (written : layout.Written fields) (lawful : Vocabulary.Lawful α)
    {value : Option α} (position : Nat)
    (entry : layout[position]? = some (names, value.map Encoded.word)) (pointer : Pointer) :
    Decoded.optional names (member α) pointer fields = .ok value :=
  written.optional_self position entry
    (fun word _ => ⟨Json.noConfusion, member_restores lawful word⟩) pointer

/-! ## Shapes of what is written -/

section
variable {name : String} {others : List String}

theorem get? (written : layout.Written fields) (position : Nat) {document : Option Json}
    (entry : layout[position]? = some (name :: others, document)) :
    fields.get? name = document := by
  have found := written.find? entry
  cases here : fields.get? name with
  | some part =>
    rw [Decoded.find?_of_get? here] at found
    cases document with
    | none => cases found
    | some document => cases found; rfl
  | none =>
    cases document with
    | none => rfl
    | some document =>
      obtain ⟨other, -, there⟩ := List.exists_of_findSome?_eq_some found
      obtain ⟨part, present, same⟩ := Option.map_eq_some_iff.mp there
      cases same
      exact here.symm.trans present

theorem has (written : layout.Written fields) (position : Nat) {document : Json}
    {shape : Json → Prop} (entry : layout[position]? = some (name :: others, some document))
    (fits : shape document) : fields.Has name shape :=
  ⟨document, written.get? position entry, fits⟩

theorem may (written : layout.Written fields) (position : Nat) {value : Option α}
    {shape : Json → Prop} (entry : layout[position]? = some (name :: others, value.map encode))
    (fits : ∀ found, value = some found → shape (encode found)) : fields.May name shape := by
  intro document found
  rw [written.get? position entry] at found
  obtain ⟨value, here, rfl⟩ := Option.map_eq_some_iff.mp found
  exact fits value here

theorem mayText (written : layout.Written fields) (position : Nat) {value : Option Text}
    (entry : layout[position]? = some (name :: others, value.map Json.string)) :
    fields.May name Json.IsText :=
  written.may position entry fun text _ => ⟨text, rfl⟩

theorem mayWord [Vocabulary α] (written : layout.Written fields) (lawful : Vocabulary.Lawful α)
    (position : Nat) {value : Option α}
    (entry : layout[position]? = some (name :: others, value.map Encoded.word)) :
    fields.May name (Json.IsWord α) :=
  written.may position entry fun word _ => lawful.isWord word

end

end Written

theorem beside_nil (layout : Layout) : layout.Beside [] := by
  intro entry _ name _ extra
  cases extra

theorem written_fields {layout : Layout} (apart : Apart layout.names) :
    layout.Written layout.fields := by
  intro entry mem
  have found := find?_fields apart layout.beside_nil mem
  rwa [List.append_nil] at found

theorem storable_written {layout : Layout} (apart : Apart layout.names)
    (each : ∀ entry ∈ layout, ∀ part ∈ entry.2, part.Storable) :
    (object layout.fields).Storable := by
  have storable := storable_fields apart layout.beside_nil each storable_cumulative.empty
  rwa [List.append_nil] at storable

/-- Extra fields that can be put on disk and are told from those of a layout. -/
structure Extended (layout : Layout) (extras : Fields) : Prop where
  beside : layout.Beside extras
  storable : (object extras).Storable

/-- What decoding leaves of an object that can be put on disk. -/
theorem extended_of_extras {layout : Layout} {declared : List (List String)} {fields : Fields}
    (storable : (object fields).Storable) (same : layout.names = declared)
    (others : ∀ entry ∈ layout, entry.2 = none → ∀ other ∈ entry.1.tail,
      other ∉ (Decoded.extras declared fields).map Prod.fst) :
    layout.Extended (Decoded.extras declared fields) :=
  ⟨beside_extras same others, Decoded.extras_storable storable⟩

theorem finite_of_storable {fields : Fields} (storable : (object fields).Storable) :
    ∀ field ∈ fields, field.2.Finite :=
  finite_object.mp (storable_iff.mp storable).2

/-- What is written with extra fields is found again, and so are the extra fields that are not
null. -/
theorem written_extras {layout : Layout} {extras : Fields} (apart : Apart layout.names)
    (extended : layout.Extended extras) :
    layout.Written (layout.fields ++ Encoded.extras extras) ∧
      Decoded.extras layout.names (layout.fields ++ Encoded.extras extras) = extras.present := by
  rw [Encoded.extras_eq_present (finite_of_storable extended.storable)]
  have beside := extended.beside.present
  exact ⟨fun _ mem => find?_fields apart beside mem, extras_fields apart beside⟩

theorem storable_extras {layout : Layout} {extras : Fields} (apart : Apart layout.names)
    (extended : layout.Extended extras)
    (each : ∀ entry ∈ layout, ∀ part ∈ entry.2, part.Storable) :
    (object (layout.fields ++ Encoded.extras extras)).Storable := by
  rw [Encoded.extras_eq_present (finite_of_storable extended.storable)]
  exact storable_fields apart extended.beside.present each
    (Fields.present_storable extended.storable)

theorem fields_only (layout : Layout) :
    layout.fields.Only (layout.names.map (·.headD "")) := by
  intro field mem
  obtain ⟨entry, there, isField⟩ := List.mem_flatMap.mp mem
  rw [← (mem_field.mp isField).1, names, List.map_map]
  exact List.mem_map_of_mem there

end Layout
end DesignSystem
