import DesignSystem.Proofs.Model.Reported
import DesignSystem.Proofs.Model.Settled
import DesignSystem.Proofs.Usage

/-! # Contracts that settle

What a contract is written as is decoded as the contract without the extra fields of its parts that
are null, and this is written alike.

* `ComponentContract.trimmed`: the contract without these fields, and so are its parts.
* `ComponentContract.Settled`: the contracts that are accepted as they are written.
* `ComponentContract.Settled.decode_document`, `ComponentContract.Settled.shape`: what is written of
  them is decoded, and accepted.
* `ComponentContract.Fits.trimmed`: usages of a contract are usages of what it settles to.
* `ComponentContract.props_of_decode`, …: the parts of accepted contracts.
-/

namespace DesignSystem
set_option autoImplicit false

open Json Decoded

theorem PropType.lawful : Vocabulary.Lawful PropType :=
  ⟨fun value => by cases value <;> decide, fun value => by cases value <;> rfl⟩

/-- Extra fields that a model leaves whose fields have one name each. -/
theorem Layout.extended_of_leaves {layout : Layout} {declared : List (List String)}
    {extras : Fields} (left : Leaves Storable declared extras) (same : layout.names = declared)
    (single : ∀ names ∈ declared, names.tail = []) : layout.Extended extras := by
  obtain ⟨fields, storable, rfl⟩ := left
  refine extended_of_extras storable same fun entry mem _ other isOther => ?_
  rw [single entry.1 (same ▸ List.mem_map_of_mem mem)] at isOther
  cases isOther

/-! ## Props -/

namespace PropDefinition

def layout (prop : PropDefinition) : Layout :=
  [(["type"], some (Encoded.word prop.type)),
    (["values"], prop.values.map fun words => .array (words.map Json.string)),
    (["default"], prop.default.map Encoded.free), (["required"], prop.required.map Json.bool),
    (["description"], prop.description.map Json.string)]

theorem apart (prop : PropDefinition) : Layout.Apart prop.layout.names :=
  (⟨by decide, by decide⟩ : Layout.Apart declared)

theorem document_eq (prop : PropDefinition) :
    prop.document = .object (prop.layout.fields ++ Encoded.extras prop.extras) := by
  simp [document, layout, Layout.fields, Layout.field, Encoded.optional, Function.comp_def]

/-- The prop without extra fields that are null. -/
def trimmed (prop : PropDefinition) : PropDefinition := { prop with extras := prop.extras.present }

theorem document_trimmed (prop : PropDefinition) : prop.trimmed.document = prop.document := by
  rw [document_eq, document_eq, trimmed, Encoded.extras_present]
  rfl

/-- What the prop holds can be put on disk, and is found again. -/
structure Settled (prop : PropDefinition) : Prop where
  default : ∀ document, prop.default = some document → document.Storable ∧ document ≠ .null
  extras : prop.layout.Extended prop.extras

variable {prop : PropDefinition}

theorem Settled.restores (settled : prop.Settled) :
    Restores decode document prop prop.trimmed := by
  intro pointer
  obtain ⟨written, extras⟩ := Layout.written_extras prop.apart settled.extras
  rw [document_eq]
  generalize prop.layout.fields ++ Encoded.extras prop.extras = fields at written extras ⊢
  have type : Decoded.required ["type"] (member PropType) pointer fields = .ok prop.type :=
    written.required 0 (member_restores PropType.lawful prop.type) rfl pointer
  have values : optional ["values"] (array string) pointer fields = .ok prop.values :=
    written.optional_self 1 rfl (fun words _ => ⟨Json.noConfusion,
      array_restores_self fun word _ => string_restores word⟩) pointer
  have default : optional ["default"] any pointer fields = .ok prop.default := by
    refine written.optional_self 2 rfl (fun document found => ?_) pointer
    obtain ⟨storable, present⟩ := settled.default document found
    have finite := (storable_iff.mp storable).2
    exact ⟨by rwa [Encoded.free_eq_self finite], any_restores finite⟩
  have required : optional ["required"] boolean pointer fields = .ok prop.required :=
    written.optional_self 3 rfl (fun value _ => ⟨Json.noConfusion, boolean_restores value⟩) pointer
  have description : optional ["description"] string pointer fields = .ok prop.description :=
    written.text 4 rfl pointer
  have extras : Decoded.extras declared fields = prop.extras.present := extras
  rw [decode, Decoded.model, type, values, default, required, description, remaining, extras]
  rfl

theorem Settled.shape (settled : prop.Settled) :
    prop.document.IsObject Shape.PropDefinition := by
  have written := (Layout.written_extras prop.apart settled.extras).1
  exact ⟨_, prop.document_eq, written.has 0 rfl (PropType.lawful.isWord prop.type),
    written.may 1 rfl fun words _ => ⟨_, rfl, by simp [IsText]⟩,
    written.may 3 rfl fun value _ => ⟨value, rfl⟩, written.mayText 4 rfl⟩

theorem Settled.lists (settled : prop.Settled)
    (enum : prop.type = .enum → ∃ word words, prop.values = some (word :: words)) :
    prop.document.IsObject Shape.ListsValues := by
  have written := (Layout.written_extras prop.apart settled.extras).1
  refine ⟨_, prop.document_eq, fun isEnum => ?_⟩
  rw [written.get? 0 rfl] at isEnum
  have sameWord := Text.ofString_injective (string.inj (Option.some.inj isEnum))
  obtain ⟨word, words, listed⟩ := enum (PropType.lawful.word_injective sameWord)
  exact ⟨_, _, by rw [written.get? 1 rfl, listed]; rfl⟩

theorem Settled.document_storable (settled : prop.Settled) : prop.document.Storable := by
  rw [document_eq]
  refine Layout.storable_extras prop.apart settled.extras ?_
  have default : ∀ document, prop.default = some document → (Encoded.free document).Storable :=
    fun document found => Encoded.free_storable (settled.default document found).1
  simp only [layout, List.forall_mem_cons, Option.forall_mem_map]
  exact ⟨by simp [Encoded.word, storable_cumulative.text],
    fun words _ => array_storable fun word _ => storable_cumulative.text word, default,
    fun value _ => storable_bool value, fun text _ => storable_cumulative.text text, by simp⟩

/-- A default that was decoded is a value. -/
theorem default_ne_null {pointer : Pointer} {document default : Json}
    (decodes : decode pointer document = .ok prop) (found : prop.default = some default) :
    default ≠ .null := by
  obtain ⟨fields, rfl, parts⟩ := model_eq_ok.mp decodes
  simp only [seq_eq_ok, functor_map_eq_ok] at parts
  obtain ⟨_, ⟨_, ⟨_, ⟨_, ⟨_, ⟨_, _, rfl⟩, _, _, rfl⟩, part, decodedPart, rfl⟩, _, _, rfl⟩, _, _,
    rfl⟩, _, _, rfl⟩ := parts
  obtain rfl : part = some default := found
  unfold Decoded.optional at decodedPart
  split at decodedPart
  · cases decodedPart
  · cases decodedPart
  · next notNull _ =>
    cases decodedPart
    exact notNull

theorem settled_of_decode {pointer : Pointer} {document : Json}
    (decodes : decode pointer document = .ok prop) (carries : prop.Carries Storable) :
    prop.Settled :=
  ⟨fun default found => ⟨carries.default default found, default_ne_null decodes found⟩,
    Layout.extended_of_leaves carries.extras rfl (by decide)⟩

end PropDefinition

/-! ## Variants and states -/

namespace VariantDefinition

def layout (variant : VariantDefinition) : Layout :=
  [(["name"], some (.string variant.name)),
    (["description"], variant.description.map Json.string),
    (["props"], some (Encoded.free (.object variant.props)))]

theorem apart (variant : VariantDefinition) : Layout.Apart variant.layout.names :=
  (⟨by decide, by decide⟩ : Layout.Apart declared)

theorem document_eq (variant : VariantDefinition) :
    variant.document = .object (variant.layout.fields ++ Encoded.extras variant.extras) := by
  simp [document, layout, Layout.fields, Layout.field, Encoded.optional, Function.comp_def]

/-- The variant without extra fields that are null. -/
def trimmed (variant : VariantDefinition) : VariantDefinition :=
  { variant with extras := variant.extras.present }

theorem document_trimmed (variant : VariantDefinition) :
    variant.trimmed.document = variant.document := by
  rw [document_eq, document_eq, trimmed, Encoded.extras_present]
  rfl

/-- What the variant holds can be put on disk, and is found again. -/
structure Settled (variant : VariantDefinition) : Prop where
  props : (Json.object variant.props).Storable
  extras : variant.layout.Extended variant.extras

variable {variant : VariantDefinition}

theorem Settled.restores (settled : variant.Settled) :
    Restores decode document variant variant.trimmed := by
  intro pointer
  obtain ⟨written, extras⟩ := Layout.written_extras variant.apart settled.extras
  rw [document_eq]
  generalize variant.layout.fields ++ Encoded.extras variant.extras = fields at written extras ⊢
  have name : required ["name"] string pointer fields = .ok variant.name :=
    written.required 0 (string_restores variant.name) rfl pointer
  have description : optional ["description"] string pointer fields = .ok variant.description :=
    written.text 1 rfl pointer
  have props : defaulted ["props"] [] anyObject pointer fields = .ok variant.props :=
    written.defaulted 2 (anyObject_restores (storable_iff.mp settled.props).2) rfl [] pointer
  have extras : Decoded.extras declared fields = variant.extras.present := extras
  rw [decode, Decoded.model, name, description, props, remaining, extras]
  rfl

theorem Settled.shape (settled : variant.Settled) : variant.document.IsObject Shape.Variant := by
  have written := (Layout.written_extras variant.apart settled.extras).1
  exact ⟨_, variant.document_eq, written.has 0 rfl ⟨variant.name, rfl⟩,
    written.has 2 rfl ⟨_, rfl, trivial⟩, written.mayText 1 rfl⟩

theorem Settled.document_storable (settled : variant.Settled) : variant.document.Storable := by
  rw [document_eq]
  refine Layout.storable_extras variant.apart settled.extras ?_
  simp [layout, storable_cumulative.text, Encoded.free_storable settled.props]

theorem settled_of_carries (carries : variant.Carries Storable) : variant.Settled :=
  ⟨carries.props, Layout.extended_of_leaves carries.extras rfl (by decide)⟩

end VariantDefinition

namespace StateDefinition

def layout (state : StateDefinition) : Layout :=
  [(["name"], some (.string state.name)), (["description"], state.description.map Json.string)]

theorem apart (state : StateDefinition) : Layout.Apart state.layout.names :=
  (⟨by decide, by decide⟩ : Layout.Apart declared)

theorem document_eq (state : StateDefinition) :
    state.document = .object (state.layout.fields ++ Encoded.extras state.extras) := by
  simp [document, layout, Layout.fields, Layout.field, Encoded.optional, Function.comp_def]

/-- The state without extra fields that are null. -/
def trimmed (state : StateDefinition) : StateDefinition :=
  { state with extras := state.extras.present }

theorem document_trimmed (state : StateDefinition) : state.trimmed.document = state.document := by
  rw [document_eq, document_eq, trimmed, Encoded.extras_present]
  rfl

variable {state : StateDefinition}

theorem restores (extended : state.layout.Extended state.extras) :
    Restores decode document state state.trimmed := by
  intro pointer
  obtain ⟨written, extras⟩ := Layout.written_extras state.apart extended
  rw [document_eq]
  generalize state.layout.fields ++ Encoded.extras state.extras = fields at written extras ⊢
  have name : required ["name"] string pointer fields = .ok state.name :=
    written.required 0 (string_restores state.name) rfl pointer
  have description : optional ["description"] string pointer fields = .ok state.description :=
    written.text 1 rfl pointer
  have extras : Decoded.extras declared fields = state.extras.present := extras
  rw [decode, Decoded.model, name, description, remaining, extras]
  rfl

theorem document_shape (extended : state.layout.Extended state.extras) :
    state.document.IsObject Shape.State := by
  have written := (Layout.written_extras state.apart extended).1
  exact ⟨_, state.document_eq, written.has 0 rfl ⟨state.name, rfl⟩, written.mayText 1 rfl⟩

theorem document_storable (extended : state.layout.Extended state.extras) :
    state.document.Storable := by
  rw [document_eq]
  refine Layout.storable_extras state.apart extended ?_
  simp [layout, storable_cumulative.text]

end StateDefinition

/-! ## Code references -/

namespace CodeReference

def layout (code : CodeReference) : Layout :=
  [(["importPath", "import_path"], some (.string code.importPath)),
    (["exportName", "export_name"], code.exportName.map Json.string)]

theorem apart (code : CodeReference) : Layout.Apart code.layout.names :=
  (⟨by decide, by decide⟩ : Layout.Apart declared)

theorem document_eq (code : CodeReference) :
    code.document = .object (code.layout.fields ++ Encoded.extras code.extras) := by
  simp [document, layout, Layout.fields, Layout.field, Encoded.optional, Function.comp_def]

/-- The code reference without extra fields that are null. -/
def trimmed (code : CodeReference) : CodeReference := { code with extras := code.extras.present }

theorem document_trimmed (code : CodeReference) : code.trimmed.document = code.document := by
  rw [document_eq, document_eq, trimmed, Encoded.extras_present]
  rfl

variable {code : CodeReference}

theorem restores (extended : code.layout.Extended code.extras) :
    Restores decode document code code.trimmed := by
  intro pointer
  obtain ⟨written, extras⟩ := Layout.written_extras code.apart extended
  rw [document_eq]
  generalize code.layout.fields ++ Encoded.extras code.extras = fields at written extras ⊢
  have importPath : required ["importPath", "import_path"] string pointer fields =
      .ok code.importPath := written.required 0 (string_restores code.importPath) rfl pointer
  have exportName : optional ["exportName", "export_name"] string pointer fields =
      .ok code.exportName := written.text 1 rfl pointer
  have extras : Decoded.extras declared fields = code.extras.present := extras
  rw [decode, Decoded.model, importPath, exportName, remaining, extras]
  rfl

theorem document_shape (extended : code.layout.Extended code.extras) :
    code.document.IsObject Shape.CodeReference := by
  have written := (Layout.written_extras code.apart extended).1
  exact ⟨_, code.document_eq, written.has 0 rfl ⟨code.importPath, rfl⟩, written.mayText 1 rfl⟩

theorem document_storable (extended : code.layout.Extended code.extras) :
    code.document.Storable := by
  rw [document_eq]
  refine Layout.storable_extras code.apart extended ?_
  simp [layout, storable_cumulative.text]

theorem extended_of_decode {pointer : Pointer} {document : Json}
    (decodes : decode pointer document = .ok code) (storable : document.Storable)
    (fits : document.IsObject Shape.CodeReference) : code.layout.Extended code.extras := by
  obtain ⟨fields, rfl, parts⟩ := model_eq_ok.mp decodes
  obtain ⟨_, same, shape⟩ := fits
  cases same
  simp only [seq_eq_ok, functor_map_eq_ok] at parts
  obtain ⟨_, ⟨_, ⟨-, -, rfl⟩, exportName, decodedName, rfl⟩, extras, decodedExtras, rfl⟩ := parts
  cases decodedExtras
  refine Layout.extended_of_extras storable rfl ?_
  simp only [layout, List.forall_mem_cons]
  exact ⟨by simp,
    others_not_mem_extras decodedName (by decide) shape.exportName (by simp [IsText]), by simp⟩

end CodeReference

/-! ## Examples -/

namespace ComponentExample

def layout (e : ComponentExample) : Layout :=
  [(["name"], e.name.map Json.string), (["description"], e.description.map Json.string),
    (["props"], some (Encoded.free (.object e.props)))]

theorem apart (e : ComponentExample) : Layout.Apart e.layout.names :=
  (⟨by decide, by decide⟩ : Layout.Apart declared)

theorem document_eq (e : ComponentExample) :
    e.document = .object (e.layout.fields ++ Encoded.extras e.extras) := by
  simp [document, layout, Layout.fields, Layout.field, Encoded.optional, Function.comp_def]

/-- The example without extra fields that are null. -/
def trimmed (e : ComponentExample) : ComponentExample := { e with extras := e.extras.present }

theorem document_trimmed (e : ComponentExample) : e.trimmed.document = e.document := by
  rw [document_eq, document_eq, trimmed, Encoded.extras_present]
  rfl

/-- What the example holds can be put on disk, and is found again. -/
structure Settled (e : ComponentExample) : Prop where
  props : (Json.object e.props).Storable
  extras : e.layout.Extended e.extras

variable {e : ComponentExample}

theorem Settled.restores (settled : e.Settled) : Restores decode document e e.trimmed := by
  intro pointer
  obtain ⟨written, extras⟩ := Layout.written_extras e.apart settled.extras
  rw [document_eq]
  generalize e.layout.fields ++ Encoded.extras e.extras = fields at written extras ⊢
  have name : optional ["name"] string pointer fields = .ok e.name := written.text 0 rfl pointer
  have description : optional ["description"] string pointer fields = .ok e.description :=
    written.text 1 rfl pointer
  have props : defaulted ["props"] [] anyObject pointer fields = .ok e.props :=
    written.defaulted 2 (anyObject_restores (storable_iff.mp settled.props).2) rfl [] pointer
  have extras : Decoded.extras declared fields = e.extras.present := extras
  rw [decode, Decoded.model, name, description, props, remaining, extras]
  rfl

theorem Settled.shape (settled : e.Settled) : e.document.IsObject Shape.Example := by
  have written := (Layout.written_extras e.apart settled.extras).1
  exact ⟨_, e.document_eq, written.has 2 rfl ⟨_, rfl, trivial⟩, written.mayText 0 rfl,
    written.mayText 1 rfl⟩

theorem Settled.keeps (settled : e.Settled) : e.Keeps e.document := by
  have written := (Layout.written_extras e.apart settled.extras).1
  refine ⟨_, e.document_eq, ?_⟩
  rw [written.get? 2 rfl, Encoded.free_eq_self (storable_iff.mp settled.props).2]

theorem Settled.document_storable (settled : e.Settled) : e.document.Storable := by
  rw [document_eq]
  refine Layout.storable_extras e.apart settled.extras ?_
  simp [layout, storable_cumulative.text, Encoded.free_storable settled.props]

theorem settled_of_carries (carries : e.Carries Storable) : e.Settled :=
  ⟨carries.props, Layout.extended_of_leaves carries.extras rfl (by decide)⟩

end ComponentExample

/-! ## Contracts -/

namespace ComponentContract

def layout (contract : ComponentContract) : Layout :=
  [(schemaNames, contract.schema.map Json.string),
    (versionNames, contract.version.map Json.string), (["name"], some (.string contract.name)),
    (["description"], contract.description.map Json.string),
    (["platformTargets", "platform_targets"],
      some (arrayOf Encoded.word contract.platformTargets)),
    (["props"], some (Encoded.dict PropDefinition.document contract.props)),
    (["variants"], contract.variants.map (arrayOf VariantDefinition.document)),
    (["states"], contract.states.map (arrayOf StateDefinition.document)),
    (["code"], contract.code.map CodeReference.document),
    (["examples"], contract.examples.map (arrayOf ComponentExample.document))]

theorem apart (contract : ComponentContract) : Layout.Apart contract.layout.names :=
  (⟨by decide, by decide⟩ : Layout.Apart [schemaNames, versionNames, ["name"], ["description"],
    ["platformTargets", "platform_targets"], ["props"], ["variants"], ["states"], ["code"],
    ["examples"]])

theorem document_eq (contract : ComponentContract) :
    contract.document = .object contract.layout.fields := by
  simp [document, layout, Layout.fields, Layout.field, Encoded.optional, Function.comp_def,
    schemaNames, versionNames]

/-- The contract without extra fields that are null. -/
def trimmed (contract : ComponentContract) : ComponentContract :=
  { contract with
    props := contract.props.map PropDefinition.trimmed
    variants := contract.variants.map (List.map VariantDefinition.trimmed)
    states := contract.states.map (List.map StateDefinition.trimmed)
    code := contract.code.map CodeReference.trimmed
    examples := contract.examples.map (List.map ComponentExample.trimmed) }

theorem document_trimmed (contract : ComponentContract) :
    contract.trimmed.document = contract.document := by
  rw [document_eq, document_eq]
  simp [trimmed, layout, arrayOf, Encoded.dict, Dict.map, Function.comp_def,
    PropDefinition.document_trimmed, VariantDefinition.document_trimmed,
    StateDefinition.document_trimmed, CodeReference.document_trimmed,
    ComponentExample.document_trimmed]
  rfl

/-- The parts of the contract settle, and it is a contract that its check accepts. -/
structure Settled (contract : ComponentContract) : Prop where
  name : IsComponentName (.string contract.name)
  targets : contract.platformTargets ≠ []
  props : ∀ entry ∈ contract.props.entries, entry.2.Settled
  enums : ∀ entry ∈ contract.props.entries, entry.2.type = .enum →
    ∃ word words, entry.2.values = some (word :: words)
  variants : ∀ variants, contract.variants = some variants → ∀ variant ∈ variants, variant.Settled
  states : ∀ states, contract.states = some states → ∀ state ∈ states,
    state.layout.Extended state.extras
  code : ∀ code, contract.code = some code → code.layout.Extended code.extras
  examples : ∀ examples, contract.examples = some examples → ∀ e ∈ examples, e.Settled
  fits : ∀ e ∈ contract.examples.getD [], contract.Fits e.props

variable {contract : ComponentContract}

theorem Settled.decode_document (settled : contract.Settled) :
    decode contract.document = .ok contract.trimmed := by
  have written := Layout.written_fields contract.apart
  have schema : optional schemaNames string [] contract.layout.fields = .ok contract.schema :=
    written.text 0 rfl []
  have version : optional versionNames string [] contract.layout.fields = .ok contract.version :=
    written.text 1 rfl []
  have name : required ["name"] string [] contract.layout.fields = .ok contract.name :=
    written.required 2 (string_restores contract.name) rfl []
  have description : optional ["description"] string [] contract.layout.fields =
      .ok contract.description := written.text 3 rfl []
  have targets : required ["platformTargets", "platform_targets"] (array (member Platform)) []
      contract.layout.fields = .ok contract.platformTargets :=
    written.required 4 (array_restores_self fun target _ =>
      member_restores Platform.lawful target) rfl []
  have props : defaulted ["props"] .empty (dict PropDefinition.decode) [] contract.layout.fields =
      .ok contract.trimmed.props :=
    written.defaulted 5 (dict_restores fun entry mem => (settled.props entry mem).restores) rfl
      .empty []
  have variants : optional ["variants"] (array VariantDefinition.decode) []
      contract.layout.fields = .ok contract.trimmed.variants :=
    written.optional 6 rfl (fun variants found => ⟨Json.noConfusion,
      array_restores fun variant mem => (settled.variants variants found variant mem).restores⟩) []
  have states : optional ["states"] (array StateDefinition.decode) [] contract.layout.fields =
      .ok contract.trimmed.states :=
    written.optional 7 rfl (fun states found => ⟨Json.noConfusion, array_restores fun state mem =>
      StateDefinition.restores (settled.states states found state mem)⟩) []
  have code : optional ["code"] CodeReference.decode [] contract.layout.fields =
      .ok contract.trimmed.code :=
    written.optional 8 rfl (fun code found => ⟨Json.noConfusion,
      CodeReference.restores (settled.code code found)⟩) []
  have examples : optional ["examples"] (array ComponentExample.decode) []
      contract.layout.fields = .ok contract.trimmed.examples :=
    written.optional 9 rfl (fun examples found => ⟨Json.noConfusion,
      array_restores fun e mem => (settled.examples examples found e mem).restores⟩) []
  rw [document_eq, decode, Decoded.model, schema, version, name, description, targets, props,
    variants, states, code, examples]
  rfl

theorem Settled.document_storable (settled : contract.Settled) : contract.document.Storable := by
  rw [document_eq]
  refine Layout.storable_written contract.apart ?_
  simp only [layout, List.forall_mem_cons, Option.forall_mem_map]
  have targets : (arrayOf Encoded.word contract.platformTargets).Storable :=
    array_storable fun target _ => storable_cumulative.text _
  have props : (Encoded.dict PropDefinition.document contract.props).Storable :=
    dict_storable fun entry mem => (settled.props entry mem).document_storable
  exact ⟨fun text _ => storable_cumulative.text text, fun text _ => storable_cumulative.text text,
    by simp [storable_cumulative.text], fun text _ => storable_cumulative.text text,
    by simp [targets], by simp [props],
    fun variants found => array_storable fun variant mem =>
      (settled.variants variants found variant mem).document_storable,
    fun states found => array_storable fun state mem =>
      StateDefinition.document_storable (settled.states states found state mem),
    fun code found => CodeReference.document_storable (settled.code code found),
    fun examples found => array_storable fun e mem =>
      (settled.examples examples found e mem).document_storable, by simp⟩

theorem Settled.structureShape (settled : contract.Settled) :
    Shape.ContractStructure contract.layout.fields := by
  have written := Layout.written_fields contract.apart
  have only := Layout.fields_only contract.layout
  have targets : contract.layout.fields.Has "platformTargets" fun part =>
      ∃ targets, part = .array targets ∧ 1 ≤ targets.length ∧
        ∀ target ∈ targets, target.IsWord Platform := by
    refine written.has 4 rfl ⟨_, rfl, ?_, List.forall_mem_map.mpr fun target _ =>
      Platform.lawful.isWord target⟩
    rw [List.length_map]
    exact List.length_pos_iff.mpr settled.targets
  refine ⟨only, written.mayText 0 rfl, written.mayText 1 rfl, written.has 2 rfl settled.name,
    written.mayText 3 rfl, targets, written.has 5 rfl (dict_isObject fun entry mem =>
      (settled.props entry mem).shape), ?_, ?_, ?_, ?_⟩
  · exact written.may 6 rfl fun variants found => array_isArray fun variant mem =>
      (settled.variants variants found variant mem).shape
  · exact written.may 7 rfl fun states found => array_isArray fun state mem =>
      StateDefinition.document_shape (settled.states states found state mem)
  · exact written.may 8 rfl fun code found => CodeReference.document_shape (settled.code code found)
  · exact written.may 9 rfl fun examples found => array_isArray fun e mem =>
      (settled.examples examples found e mem).shape

theorem Settled.shape (settled : contract.Settled) :
    contract.document.IsObject Shape.Contract := by
  have written := Layout.written_fields contract.apart
  refine ⟨_, contract.document_eq, settled.structureShape, ?_, fun part found => ?_⟩
  · exact (written.has 5 rfl (dict_isObject fun entry mem =>
      (settled.props entry mem).lists (settled.enums entry mem))).may
  · rw [written.get? 5 rfl] at found
    cases found
    refine ⟨_, rfl, written.may 9 rfl fun examples here => array_isArray fun e mem => ?_⟩
    obtain ⟨fields, same, supplies⟩ := (settled.examples examples here e mem).keeps
    refine ⟨fields, same, fun part found => ?_⟩
    cases supplies.symm.trans found
    refine ⟨_, rfl, fun prop supplied => ?_⟩
    have fits : contract.Fits e.props := settled.fits e (by rwa [here])
    obtain ⟨definition, declared, -⟩ := fits.declared prop supplied
    rw [List.map_map]
    exact (lookup_isSome contract.props.entries prop.1).mp (Option.isSome_of_mem declared)

/-! ## Usages of the trimmed contract -/

theorem Fits.trimmed {supplied : Fields} (fits : contract.Fits supplied) :
    contract.trimmed.Fits supplied := by
  refine ⟨fun entry mem isRequired => ?_, fun prop mem => ?_⟩
  · obtain ⟨source, listed, rfl⟩ := List.mem_map.mp mem
    exact fits.required source listed isRequired
  · obtain ⟨definition, found, admits⟩ := fits.declared prop mem
    have here : contract.trimmed.props.find? prop.1 = some definition.trimmed :=
      lookup_of_mem contract.trimmed.props.distinct (List.mem_map_of_mem (mem_of_lookup found))
    exact ⟨definition.trimmed, here, admits⟩

theorem Settled.examples_fit (settled : contract.Settled) :
    ∀ e ∈ contract.trimmed.examples.getD [], contract.trimmed.Fits e.props := by
  intro e mem
  have fits := settled.fits
  cases listed : contract.examples with
  | none =>
    rw [trimmed, listed] at mem
    cases mem
  | some examples =>
    rw [trimmed, listed] at mem
    obtain ⟨source, here, rfl⟩ := List.mem_map.mp mem
    exact (fits source (by rwa [listed])).trimmed

/-! ## Accepted contracts -/

theorem name_and_code_of_decode {fields : Fields}
    (decodes : decode (.object fields) = .ok contract) :
    required ["name"] string [] fields = .ok contract.name ∧
      optional ["code"] CodeReference.decode [] fields = .ok contract.code := by
  obtain ⟨_, same, parts⟩ := model_eq_ok.mp decodes
  cases same
  simp only [seq_eq_ok, functor_map_eq_ok] at parts
  obtain ⟨_, ⟨_, ⟨_, ⟨_, ⟨_, ⟨_, ⟨_, ⟨_, ⟨_, ⟨-, -, rfl⟩, -, -, rfl⟩, name, decodedName, rfl⟩,
    -, -, rfl⟩, -, -, rfl⟩, -, -, rfl⟩, -, -, rfl⟩, -, -, rfl⟩, code, decodedCode, rfl⟩, -, -,
    rfl⟩ := parts
  exact ⟨decodedName, decodedCode⟩

theorem componentName_of_decode {fields : Fields}
    (decodes : decode (.object fields) = .ok contract) (shape : Shape.ContractStructure fields) :
    IsComponentName (.string contract.name) := by
  obtain ⟨part, found, named⟩ := shape.name
  have decodesName := (name_and_code_of_decode decodes).1
  rw [required_of_get? found] at decodesName
  obtain ⟨capital, rest, ending, rfl, spelled⟩ := named
  exact ⟨capital, rest, ending, by rw [Decoded.ok.inj decodesName], spelled⟩

theorem code_of_decode {fields : Fields} (decodes : decode (.object fields) = .ok contract)
    (storable : (Json.object fields).Storable) (shape : Shape.ContractStructure fields) :
    ∀ code, contract.code = some code → code.layout.Extended code.extras := by
  intro code isCode
  have decodesCode := (name_and_code_of_decode decodes).2
  rw [isCode] at decodesCode
  cases found : Fields.get? fields "code" with
  | none =>
    rw [optional_alone found (by simp)] at decodesCode
    cases decodesCode
  | some part =>
    have fits := shape.code part found
    obtain ⟨inside, rfl, -⟩ := fits
    rw [optional_of_get? found (by simp)] at decodesCode
    obtain ⟨value, decodesPart, same⟩ := Decoded.map_eq_ok.mp decodesCode
    cases same
    exact CodeReference.extended_of_decode decodesPart (storable_cumulative.get? storable found)
      (shape.code _ found)

theorem props_of_decode {fields : Fields} (decodes : decode (.object fields) = .ok contract)
    (carries : contract.Carries Storable) (shape : Shape.ContractStructure fields) :
    ∀ entry ∈ contract.props.entries, entry.2.Settled := by
  intro entry mem
  obtain ⟨_, same, -, decodesProps⟩ := decode_eq_ok decodes
  cases same
  obtain ⟨part, found, -⟩ := shape.props
  rw [defaulted_of_get? found] at decodesProps
  obtain ⟨_, rfl, origin⟩ := dict_eq_ok decodesProps
  obtain ⟨_, -, -, _, decodesProp⟩ := origin entry mem
  exact PropDefinition.settled_of_decode decodesProp (carries.props entry mem)

end ComponentContract
end DesignSystem
