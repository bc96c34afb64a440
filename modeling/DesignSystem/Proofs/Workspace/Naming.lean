import DesignSystem.Proofs.Workspace.Report
import DesignSystem.Proofs.Workspace.Write

/-! # Contracts under their names

* `Slot.opened`: what reading a slot gives, by the bytes in its file.
* `Workspace.contract_opened`: a listed contract is read from the file it is listed for, unless its
  name has a backslash.
* `Workspace.contract_kept`: a contract is read as it was written after another one is written,
  unless the two names have one file.
-/

namespace DesignSystem
set_option autoImplicit false

/-! ## Files of contracts -/

namespace Workspace

theorem safeName_eq_self {name : String} :
    safeName name = name ↔ '/' ∉ name.toList ∧ '\\' ∉ name.toList := by
  rw [← String.toList_inj, safeName, String.toList_ofList]
  induction name.toList with
  | nil => simp
  | cons c cs ih =>
    rw [List.map_cons, List.cons.injEq, ih, List.mem_cons, List.mem_cons, not_or, not_or]
    have here : (if c == '/' || c == '\\' then '_' else c) = c ↔ ¬ '/' = c ∧ ¬ '\\' = c := by
      by_cases slash : c = '/'
      · subst slash
        decide
      · by_cases backslash : c = '\\'
        · subst backslash
          decide
        · simp [slash, backslash, Ne.symm (a := c) slash, Ne.symm (a := c) backslash]
    rw [here]
    tauto

/-- A contract has the file with its name if the name has no slash of either kind. -/
theorem contract_path_eq {workspace : Workspace} {name : String} :
    (workspace.contract name).path = workspace.contractsDirectory.child (contractFile name) ↔
      '/' ∉ name.toList ∧ '\\' ∉ name.toList := by
  rw [← safeName_eq_self]
  constructor
  · intro same
    have parts := congrArg Path.parts same
    simp only [contract, Path.child, List.append_cancel_left_eq, List.cons.injEq, and_true] at parts
    exact Location.contractFile_injective parts
  · intro same
    simp only [contract, same]

end Workspace

/-! ## Reading listed contracts -/

/-- What reading a slot gives where these bytes are in its file. -/
def Slot.opened {α : Type} (slot : Slot α) (bytes : Bytes) : Outcome α :=
  match Slot.parse bytes with
  | .error fault => .failed (slot.failure fault)
  | .ok document => slot.build document

theorem Slot.read_of_readFile {α : Type} {slot : Slot α} {disk : Disk} {bytes : Bytes}
    (reads : disk.readFile slot.path = .ok bytes) : slot.read disk = slot.opened bytes := by
  rw [Slot.read, Slot.load, reads, Slot.opened]
  cases parses : Slot.parse bytes <;> simp [parses, bind, Outcome.bind]

/-- No failure to use what is in a file has the code for an absent one. -/
theorem Slot.opened_eq_failed {α : Type} {slot : Slot α} {bytes : Bytes} {failure : Failure}
    (h : slot.opened bytes = .failed failure) : failure.code = slot.schema.invalid := by
  unfold Slot.opened at h
  split at h
  · next parses =>
    cases h
    exact slot.failure_code fun absent => Slot.parse_ne_absent (absent ▸ parses)
  · unfold Slot.build at h
    split at h <;> cases h
    rfl

namespace Workspace
variable {workspace : Workspace} {disk : Disk} {names : List String} {name : String}

theorem readFile_of_listed (lists : workspace.contractNames disk = .ok names)
    (listed : name ∈ names) (fileName : IsFileName (contractFile name)) :
    ∃ bytes,
      disk.readFile (workspace.contractsDirectory.child (contractFile name)) = .ok bytes := by
  obtain ⟨files, found, mem⟩ := contractFile_of_contractNames lists
  have plain : ".." ∉ [contractFile name] := by
    simpa using Ne.symm (Location.contractFile_ne name (by decide))
  exact Disk.readFile_of_fileNames found ((mem name).mp listed) fileName plain

theorem flatMap_eq_of_nodup {α β : Type} {f : α → List β} {items : List α} {item : α}
    (distinct : items.Nodup) (mem : item ∈ items)
    (others : ∀ other, other ≠ item → f other = []) : items.flatMap f = f item := by
  obtain ⟨before, after, rfl⟩ := List.append_of_mem mem
  rw [List.nodup_middle, List.nodup_cons, List.mem_append, not_or] at distinct
  have none : ∀ rest : List α, item ∉ rest → rest.flatMap f = [] := fun rest absent =>
    List.flatMap_eq_nil_iff.mpr fun other mem => others other fun same => absent (same ▸ mem)
  rw [List.flatMap_append, List.flatMap_cons, none before distinct.1.1, none after distinct.1.2,
    List.nil_append, List.append_nil]

/-- What a validation of a workspace that is there reports at the place of a document that may not
be missing is what reading this document gives. -/
theorem validate_at {report : Report} {location : Location}
    (there : workspace.isThere disk = true) (validates : workspace.validate disk = .ok report)
    (lists : workspace.contractNames disk = .ok names) (mem : location ∈ checklist names)
    (required : ¬ location.MayMiss) :
    documentIssues location.place (workspace.read disk location.address) =
      .ok (report.issues.filter fun issue => issue.place.text = location.place) := by
  rw [validate, if_pos there] at validates
  obtain ⟨issues, found, same⟩ := bind_eq_ok validates
  obtain ⟨contracts, listsAgain, runs⟩ := documents_runs found
  cases lists.symm.trans listsAgain
  rw [documents_eq_ok lists runs] at found
  cases found
  cases same
  have places : ∀ other, ∀ issue ∈ workspace.issuesAt disk other,
      issue.place.text = other.place := by
    intro other issue mem
    obtain ⟨failure, -, rfl⟩ := List.mem_map.mp mem
    rfl
  -- every other location of the checklist names its issues otherwise
  rw [documentIssues_at location required (runs location mem), List.filter_flatMap,
    flatMap_eq_of_nodup (nodup_checklist (nodup_contractNames lists)) mem]
  · rw [List.filter_eq_self.mpr fun issue mem => decide_eq_true (places _ issue mem)]
  · intro other apart
    refine List.filter_eq_nil_iff.mpr fun issue mem same => apart (Location.place_injective ?_)
    rw [← places other issue mem, of_decide_eq_true same]

/-- A listed contract is read from the file it is listed for if its name has no backslash. What it
gives then is decided by the bytes in this file: it fails to be read only with the code for an
invalid contract, and what a validation reports under the name of the file is the failure. -/
theorem contract_opened (lists : workspace.contractNames disk = .ok names) (listed : name ∈ names)
    (fileName : IsFileName (contractFile name)) :
    ((workspace.contract name).path = workspace.contractsDirectory.child (contractFile name) ↔
      '\\' ∉ name.toList) ∧
    ('\\' ∉ name.toList → ∃ bytes,
      disk.readFile (workspace.contractsDirectory.child (contractFile name)) = .ok bytes ∧
      workspace.read disk (.contract name) = (workspace.contract name).opened bytes ∧
      (∀ failure, workspace.read disk (.contract name) = .failed failure →
        failure.code = .contractInvalid) ∧
      ∀ report, workspace.validate disk = .ok report →
        documentIssues s!"{contractsFolder}/{contractFile name}"
            ((workspace.contract name).opened bytes) =
          .ok (report.issues.filter fun issue =>
            issue.place.text = s!"{contractsFolder}/{contractFile name}")) := by
  have noSlash : '/' ∉ name.toList := fun mem => fileName.noSlash (by
    rw [contractFile, String.toList_append]
    exact List.mem_append_left _ mem)
  obtain ⟨bytes, reads⟩ := readFile_of_listed lists listed fileName
  refine ⟨contract_path_eq.trans (and_iff_right noSlash), fun plain => ⟨bytes, reads, ?_⟩⟩
  have opens : (workspace.contract name).read disk = (workspace.contract name).opened bytes :=
    Slot.read_of_readFile (by rw [contract_path_eq.mpr ⟨noSlash, plain⟩, reads])
  refine ⟨opens, fun failure fails => Slot.opened_eq_failed (opens.symm.trans fails),
    fun report validates => ?_⟩
  have mem : Location.contract name ∈ checklist names := by simp [checklist, listed]
  obtain ⟨root, directory⟩ := Disk.hasDirectory_of_readFile
    (Location.tail_plain (.contract name)) (List.cons_ne_nil _ _)
    (show disk.readFile (workspace.root.below (Location.contract name).tail) = .ok bytes by
      rw [← reads]
      simp [Path.below, Path.child, contractsDirectory, Location.tail])
  have there : workspace.isThere disk = true := isThere_iff.mpr ⟨root, directory⟩
  rw [← opens]
  exact validate_at there validates lists mem id

/-- A contract file that is no document. -/
def brokenDisk : Disk := ⟨[("library", .directory [
  ("contracts", .directory [("Card.contract.json", .file [0x7B])])])]⟩

theorem contract_opened_card :
    Workspace.contractNames ⟨.ofText "library"⟩ brokenDisk = .ok ["Card"] ∧
    ∃ bytes, brokenDisk.readFile (.ofText "library/contracts/Card.contract.json") = .ok bytes ∧
      Workspace.read ⟨.ofText "library"⟩ brokenDisk (.contract "Card") =
        (Workspace.contract ⟨.ofText "library"⟩ "Card").opened bytes := by
  have lists : Workspace.contractNames ⟨.ofText "library"⟩ brokenDisk = .ok ["Card"] := by
    decide +kernel
  have fileName : IsFileName (contractFile "Card") := ⟨by decide, by decide, by decide⟩
  obtain ⟨bytes, reads, opens, -⟩ :=
    (contract_opened lists (List.mem_singleton.mpr rfl) fileName).2 (by decide)
  exact ⟨lists, bytes, reads, opens⟩

/-- A contract in a file with a backslash in its name. -/
def backslashDisk : Disk := ⟨[("library", .directory [
  ("contracts", .directory [("a\\b.contract.json", .file (Slot.bytes Starter.button))])])]⟩

/-- A contract that is listed under a name with a backslash is not found under this name. -/
theorem contract_opened_backslash :
    let workspace : Workspace := ⟨.ofText "library"⟩
    workspace.contractNames backslashDisk = .ok ["a\\b"] ∧
    backslashDisk.readFile (workspace.contractsDirectory.child "a\\b.contract.json") =
      .ok (Slot.bytes Starter.button) ∧
    ∃ failure, workspace.read backslashDisk (.contract "a\\b") = .failed failure ∧
      failure.code = .contractNotFound := by
  intro workspace
  have absent : backslashDisk.readFile (workspace.contract "a\\b").path =
      .error (.disk ⟨.absent, "library/contracts/a_b.contract.json"⟩) := by decide +kernel
  have codes : (workspace.contract "a\\b").schema.invalid ≠
      (workspace.contract "a\\b").schema.absent := by decide
  exact ⟨by decide +kernel, by decide +kernel, (Slot.read_absent codes).mpr ⟨_, absent, rfl⟩⟩

/-! ## Writing under several names -/

/-- A document is read as before if another one is written at another place. -/
theorem AtLocation.kept {α β : Type} {after : Disk} {slot : Slot α} {other : Slot β}
    {location place : Location} (located : workspace.AtLocation slot location)
    (locatedOther : workspace.AtLocation other place) (apart : location ≠ place) {content : Bytes}
    (wrote : disk.Wrote after other.path content) {model : α} (reads : slot.read disk = .ok model) :
    slot.read after = .ok model := by
  obtain ⟨bytes, document, found, parses, builds⟩ := Slot.read_eq_ok.mp reads
  refine Slot.read_eq_ok.mpr ⟨bytes, document, wrote.rewrites.readFile ?_ found, parses, builds⟩
  intro file mem
  rw [List.mem_singleton] at mem
  subst mem
  rw [located.path, locatedOther.path, Path.names_below _ location.tail_plain,
    Path.names_below _ place.tail_plain]
  exact fun same => apart (Location.tail_injective (List.append_cancel_left same))

/-- If two contracts are written one after the other, the first is read as it was written, unless
the two names have one file, as they do if they differ in slashes and underscores only: then the
second has taken its place. -/
theorem contract_kept {middle after : Disk} {other : String} (first : Argument (.contract name))
    (second : Argument (.contract other)) {path pathOther : Path}
    (writes : workspace.write disk (.contract name) first = (.ok path, middle))
    (writesOther : workspace.write middle (.contract other) second = (.ok pathOther, after)) :
    ∃ contract : ComponentContract,
      ComponentContract.decode
          (if safeName name = safeName other then second.document else first.document) =
        .ok contract ∧
      workspace.read after (.contract name) = .ok contract := by
  rw [write_eq rfl] at writes writesOther
  obtain ⟨-, wrote, unicode, writable, contract, builds⟩ := Slot.write_eq_ok writes
  obtain ⟨-, wroteOther, unicodeOther, writableOther, contractOther, buildsOther⟩ :=
    Slot.write_eq_ok writesOther
  split
  · next same =>
    have path : (workspace.contract name).path = (workspace.contract other).path := by
      simp only [Workspace.contract, same]
    have kind : Schema.contract.build second.document = .ok (.ok contractOther) :=
      Slot.build_eq_ok.mp buildsOther
    have buildsHere : (workspace.contract name).build second.document = .ok contractOther :=
      Slot.build_eq_ok.mpr kind
    exact ⟨contractOther, (Schema.build_eq_ok kind).2,
      Slot.read_of_wrote second.distinct unicodeOther writableOther buildsHere
        (path ▸ wroteOther)⟩
  · next apart =>
    have reads := Slot.read_of_wrote first.distinct unicode writable builds wrote
    have different : Location.contract (safeName name) ≠ .contract (safeName other) :=
      fun same => apart (Location.contract.inj same)
    exact ⟨contract, (Schema.build_eq_ok (Slot.build_eq_ok.mp builds)).2,
      (workspace.contract_atLocation name).kept (workspace.contract_atLocation other) different
        wroteOther reads⟩

/-- A contract without props. -/
def plainContract (name : String) : Json :=
  .object [("name", .string name), ("platformTargets", .array [.string "web"]),
    ("props", .object [])]

/-- Two contracts, written one after the other. -/
def writeBoth (name other : String) : (Outcome Path × Disk) × Outcome Path × Disk :=
  let first := Workspace.write ⟨.ofText "library"⟩ .empty (.contract name)
    (.raw (plainContract "Card") (by decide))
  (first, Workspace.write ⟨.ofText "library"⟩ first.2 (.contract other)
    (.raw (plainContract "Chip") (by decide)))

theorem writeBoth_eq {name other : String}
    (succeed : (writeBoth name other).1.1.isOk = true ∧ (writeBoth name other).2.1.isOk = true) :
    ∃ path middle pathOther,
      Workspace.write ⟨.ofText "library"⟩ .empty (.contract name)
        (.raw (plainContract "Card") (by decide)) = (.ok path, middle) ∧
      Workspace.write ⟨.ofText "library"⟩ middle (.contract other)
        (.raw (plainContract "Chip") (by decide)) =
          (.ok pathOther, (writeBoth name other).2.2) := by
  obtain ⟨path, first⟩ := Outcome.exists_of_isOk succeed.1
  obtain ⟨pathOther, second⟩ := Outcome.exists_of_isOk succeed.2
  exact ⟨path, (writeBoth name other).1.2, pathOther, Prod.ext first rfl, Prod.ext second rfl⟩

theorem contract_kept_plain : ∃ path middle pathOther after,
    Workspace.write ⟨.ofText "library"⟩ .empty (.contract "Card")
      (.raw (plainContract "Card") (by decide)) = (.ok path, middle) ∧
    Workspace.write ⟨.ofText "library"⟩ middle (.contract "Chip")
      (.raw (plainContract "Chip") (by decide)) = (.ok pathOther, after) ∧
    ∃ contract : ComponentContract, ComponentContract.decode (plainContract "Card") = .ok contract ∧
      Workspace.read ⟨.ofText "library"⟩ after (.contract "Card") = .ok contract := by
  have succeed : (writeBoth "Card" "Chip").1.1.isOk = true ∧
      (writeBoth "Card" "Chip").2.1.isOk = true := by decide +kernel
  obtain ⟨path, middle, pathOther, writes, writesOther⟩ := writeBoth_eq succeed
  have kept := contract_kept _ _ writes writesOther
  rw [if_neg (by decide)] at kept
  exact ⟨path, middle, pathOther, _, writes, writesOther, kept⟩

/-- The name in the contract that a document builds. -/
def nameIn (document : Json) : Option Text :=
  match ComponentContract.decode document with
  | .ok contract => some contract.name
  | .rejected _ => none

/-- The name in the contract that is read under a name. -/
def nameRead (workspace : Workspace) (disk : Disk) (name : String) : Option Text :=
  match (workspace.contract name).read disk with
  | .ok contract => some contract.name
  | _ => none

/-- Names that differ in a slash have one file. -/
theorem contract_kept_slash : ∃ path middle pathOther after,
    Workspace.write ⟨.ofText "library"⟩ .empty (.contract "a/b")
      (.raw (plainContract "Card") (by decide)) = (.ok path, middle) ∧
    Workspace.write ⟨.ofText "library"⟩ middle (.contract "a_b")
      (.raw (plainContract "Chip") (by decide)) = (.ok pathOther, after) ∧
    ∀ contract : ComponentContract, ComponentContract.decode (plainContract "Card") = .ok contract →
      Workspace.read ⟨.ofText "library"⟩ after (.contract "a/b") ≠ .ok contract := by
  have succeed : (writeBoth "a/b" "a_b").1.1.isOk = true ∧
      (writeBoth "a/b" "a_b").2.1.isOk = true := by decide +kernel
  obtain ⟨path, middle, pathOther, writes, writesOther⟩ := writeBoth_eq succeed
  refine ⟨path, middle, pathOther, _, writes, writesOther, fun contract decodes reads => ?_⟩
  have replaced : nameRead ⟨.ofText "library"⟩ (writeBoth "a/b" "a_b").2.2 "a/b" =
      some "Chip" := by decide +kernel
  have written : nameIn (plainContract "Card") = some "Card" := by decide +kernel
  rw [nameIn, decodes] at written
  rw [nameRead, show (Workspace.contract ⟨.ofText "library"⟩ "a/b").read
    (writeBoth "a/b" "a_b").2.2 = .ok contract from reads] at replaced
  exact absurd (written.symm.trans replaced) (by decide)

end Workspace
end DesignSystem
