-- The law of loading a directory. Whether the documents of a directory are
-- loaded, and what the registry then holds, is decided by the entries alone:
-- neither the order in which they are listed nor what stands beside them matters.
import GuardedCall.Proofs.Registration
import GuardedCall.Proofs.Utf8
import Mathlib.Data.List.Nodup

namespace GuardedCall

theorem Table.Sorted.nodup {α : Type} {t : Table α} (h : t.Sorted) : t.Nodup := by
  refine List.Pairwise.imp ?_ h
  rintro p q hlt rfl
  exact String.lt_irrefl p.1 hlt

/-- A table is determined by what is found in it. -/
theorem Table.Sorted.ext {α : Type} {t u : Table α} (ht : t.Sorted) (hu : u.Sorted)
    (h : ∀ key, t.find? key = u.find? key) : t = u := by
  refine ht.eq_of_perm hu ((List.perm_ext_iff_of_nodup ht.nodup hu.nodup).mpr fun p => ?_)
  constructor
  · intro hp
    exact Table.mem_of_find? ((h p.1).symm.trans (ht.find?_of_mem hp))
  · intro hp
    exact Table.mem_of_find? ((h p.1).trans (hu.find?_of_mem hp))

namespace Loading

open GuardedCall.Registration

variable {τ : Type}

/-! ## Entries -/

/-- The name of the file of a document. -/
def fileName (stem : String) : String := stem ++ ".schema.json"

/-- The bytes of a file write a document that a registry may have under the name. -/
structure Loads (config : RegistryConfig) (stem : String) (bytes : List UInt8) (document : Json) :
    Prop where
  named : WellFormed stem
  small : bytes.length ≤ config.maxFileSize
  written : ∃ text, bytes = Text.Utf8.encode text ∧ Json.read text = .ok document
  compiles : ∃ c, compileDocument config.schema document = .ok c

/-- The stem and the bytes of an entry that is a regular file whose name has the suffix. -/
def schemaFile? (p : String × DirectoryItem) : Option (String × List UInt8) :=
  match Directory.schemaName? p.1, p.2 with
  | some stem, .file bytes => some (stem, bytes)
  | _, _ => none

/-- The regular files among the entries whose names have the suffix. -/
def schemaFiles (items : List (String × DirectoryItem)) : List (String × List UInt8) :=
  items.filterMap schemaFile?

/-- What the entries of a directory have to be like. -/
structure Loadable (config : RegistryConfig) (items : List (String × DirectoryItem)) : Prop where
  noLinks : ∀ stem, (fileName stem, .symlink) ∉ items
  few : (schemaFiles items).length ≤ config.maxSchemas
  files : ∀ stem bytes, (fileName stem, .file bytes) ∈ items →
    ∃ document, Loads config stem bytes document

/-- What a registry holds that was loaded. -/
structure Holds (config : RegistryConfig) (items : List (String × DirectoryItem)) (r : Registry) :
    Prop where
  config_eq : r.config = config
  /-- Every document remembers that it compiles under the settings. -/
  checked : Checked r
  sorted : r.schemas.Sorted
  names : ∀ stem, stem ∈ r.names ↔ ∃ bytes, (fileName stem, .file bytes) ∈ items
  documents : ∀ stem document, (∃ s, r.get? stem = some s ∧ s.document = document) ↔
    ∃ bytes, (fileName stem, .file bytes) ∈ items ∧ Loads config stem bytes document

/-- Both fail, or both give the same registry. -/
def Alike (a b : Except SchemaFault Registry) : Prop :=
  (∃ r, a = .ok r ∧ b = .ok r) ∨ ∃ f g, a = .error f ∧ b = .error g

/-- The entries are the same as far as they matter: the links and the regular files whose names have
the suffix. -/
def SameSchemaEntries (others items : List (String × DirectoryItem)) : Prop :=
  ∀ stem item, item ≠ .other → ((fileName stem, item) ∈ others ↔ (fileName stem, item) ∈ items)

theorem schemaName?_eq_some_iff {file stem : String} :
    Directory.schemaName? file = some stem ↔ file = fileName stem := by
  have htake : ∀ front : List Char, (front ++ Directory.suffix).take
      ((front ++ Directory.suffix).length - Directory.suffix.length) = front := by
    intro front
    rw [List.length_append, Nat.add_sub_cancel, List.take_left]
  have hname : (fileName stem).toList = stem.toList ++ Directory.suffix := String.toList_append
  simp only [Directory.schemaName?, Option.ite_none_right_eq_some, Option.some.injEq,
    List.isSuffixOf_iff_suffix]
  constructor
  · rintro ⟨⟨front, hfront⟩, rfl⟩
    rw [← String.toList_inj, hname, String.toList_ofList, ← hfront, htake]
  · rintro rfl
    rw [hname, htake, String.ofList_toList]
    exact ⟨⟨_, rfl⟩, rfl⟩

theorem schemaFile?_eq_some_iff {p : String × DirectoryItem} {f : String × List UInt8} :
    schemaFile? p = some f ↔ p = (fileName f.1, .file f.2) := by
  obtain ⟨file, item⟩ := p
  constructor
  · intro h
    unfold schemaFile? at h
    split at h
    · rename_i stem bytes hname hitem
      obtain rfl := Option.some.inj h
      exact Prod.ext (schemaName?_eq_some_iff.mp hname) hitem
    · cases h
  · rintro h
    obtain ⟨rfl, rfl⟩ := Prod.mk.inj h
    unfold schemaFile?
    rw [schemaName?_eq_some_iff.mpr rfl]

theorem mem_schemaFiles_iff {items : List (String × DirectoryItem)} {stem : String}
    {bytes : List UInt8} :
    (stem, bytes) ∈ schemaFiles items ↔ (fileName stem, .file bytes) ∈ items := by
  simp only [schemaFiles, List.mem_filterMap, schemaFile?_eq_some_iff, exists_eq_right]

/-- In a directory no stem is there twice. -/
theorem nodup_stems {items : List (String × DirectoryItem)} (h : (items.map Prod.fst).Nodup) :
    ((schemaFiles items).map Prod.fst).Nodup := by
  rw [List.Nodup, List.pairwise_map] at h ⊢
  refine h.filterMap _ ?_
  intro p q hne f hf g hg heq
  rw [schemaFile?_eq_some_iff] at hf hg
  rw [hf, hg, heq] at hne
  exact hne rfl

/-! ## One file -/

/-- The bytes of a file that can be read as a text. -/
structure Readable (config : RegistryConfig) (bytes : List UInt8) : Prop where
  small : bytes.length ≤ config.maxFileSize
  text : ∃ text, bytes = Text.Utf8.encode text

/-- The call that registers what a file writes. -/
def callOfFile (f : String × List UInt8) : Call := .written f.1 (Text.Utf8.decode f.2).1

theorem readFile_eq_ok_iff {config : RegistryConfig} {path : String} {bytes : List UInt8}
    {text : List Char} :
    Directory.readFile config.maxFileSize path bytes = .ok text ↔
      Readable config bytes ∧ (Text.Utf8.decode bytes).1 = text := by
  have hreadable : Readable config bytes ↔
      bytes.length ≤ config.maxFileSize ∧ (Text.Utf8.decode bytes).2 = true := by
    constructor
    · rintro ⟨hsmall, text, rfl⟩
      exact ⟨hsmall, by rw [Text.Utf8.decode_encode]⟩
    · rintro ⟨hsmall, hrest⟩
      exact ⟨hsmall, _, Text.Utf8.decode_eq_true_iff.mp (Prod.ext rfl hrest)⟩
  rw [hreadable, Directory.readFile]
  rcases Text.Utf8.decode bytes with ⟨read, _ | _⟩
  · split <;> simp
  · split
    · rename_i hlarge
      simp [Nat.not_le.mpr hlarge]
    · rename_i hsmall
      simp [Nat.not_lt.mp hsmall]

/-- A file that is readable is registered exactly if it writes a document that may be had under a
new name. -/
theorem registrable_iff {config : RegistryConfig} {stem : String} {bytes : List UInt8} :
    Readable config bytes ∧ Registrable config (callOfFile (stem, bytes)) ↔
      ∃ document, Loads config stem bytes document := by
  constructor
  · rintro ⟨⟨hsmall, text, rfl⟩, hname, document, c, hdocument, hc⟩
    simp only [callOfFile, Text.Utf8.decode_encode, Call.document?] at hdocument
    refine ⟨document, hname, hsmall, ⟨text, rfl, ?_⟩, c, hc⟩
    rcases hread : Json.read text with f | d
    · rw [hread] at hdocument
      cases hdocument
    · rw [hread] at hdocument
      rw [Option.some.inj hdocument]
  · rintro ⟨document, hname, hsmall, ⟨text, rfl, hread⟩, c, hc⟩
    refine ⟨⟨hsmall, text, rfl⟩, hname, document, c, ?_, hc⟩
    rw [callOfFile, Text.Utf8.decode_encode, Call.document?, hread]
    rfl

/-! ## The loop -/

section Loop

variable {path file stem : String} {item : DirectoryItem} {bytes : List UInt8} {loaded : Nat}
  {rest : List (String × DirectoryItem)} {r r' : Registry}

theorem loadItems_of_not_named (h : Directory.schemaName? file = none) :
    Directory.loadItems path loaded ((file, item) :: rest) =
      Directory.loadItems path loaded rest := by
  rw [Directory.loadItems.eq_def]
  simp only [h]

theorem loadItems_other :
    Directory.loadItems path loaded ((file, .other) :: rest) =
      Directory.loadItems path loaded rest := by
  rw [Directory.loadItems.eq_def]
  dsimp only
  cases Directory.schemaName? file <;> rfl

/-- A link with the name of a schema file ends the loop. -/
theorem loadItems_link_ne_ok (h : Directory.schemaName? file = some stem) :
    (Directory.loadItems path loaded ((file, .symlink) :: rest)).ends r ≠ (.ok (), r') := by
  rw [Directory.loadItems.eq_def]
  simp only [h]
  rintro ⟨⟩

/-- With a schema file the loop goes on exactly if there is room for one more, the file can be read
and what it writes is registered. -/
theorem loadItems_file_eq_ok_iff (h : Directory.schemaName? file = some stem) :
    (Directory.loadItems path loaded ((file, .file bytes) :: rest)).ends r = (.ok (), r') ↔
      loaded < r.config.maxSchemas ∧ Readable r.config bytes ∧
        (entry (callOfFile (stem, bytes)) r).answer = .ok () ∧
        (Directory.loadItems path (loaded + 1) rest).ends
          (entry (callOfFile (stem, bytes)) r).after = (.ok (), r') := by
  have hcurrent : (Attempt.current : Attempt Registry SchemaFault Registry).ends r = (.ok r, r) := rfl
  have hperform : (callOfFile (stem, bytes)).perform =
      Registry.register stem (Text.Utf8.decode bytes).1 := rfl
  rw [Directory.loadItems.eq_def]
  simp only [h, Attempt.ends_bind, hcurrent]
  by_cases hroom : r.config.maxSchemas ≤ loaded
  · simp [hroom, Nat.not_lt.mpr hroom]
  · rw [if_neg hroom, Attempt.ends_bind, Attempt.ends_ofExcept]
    rcases hread : Directory.readFile r.config.maxFileSize (Directory.pathOf path file) bytes with
      f | text
    · have hnot : ¬ Readable r.config bytes := fun hreadable => by
        rw [readFile_eq_ok_iff.mpr ⟨hreadable, rfl⟩] at hread
        cases hread
      simp [hnot]
    · obtain ⟨hreadable, rfl⟩ := readFile_eq_ok_iff.mp hread
      simp only [Nat.not_le.mp hroom, hreadable, true_and, Attempt.ends_bind]
      rw [← hperform, entry]
      rcases (callOfFile (stem, bytes)).perform.ends r with ⟨_ | _, s⟩ <;> simp

end Loop

theorem schemaFiles_cons (p : String × DirectoryItem) (rest : List (String × DirectoryItem)) :
    schemaFiles (p :: rest) = schemaFiles [p] ++ schemaFiles rest := by
  rw [schemaFiles, ← List.singleton_append, List.filterMap_append]
  rfl

/-- The loop ends well exactly if no entry is a link with the suffix, there is room for every file
with the suffix, these can be read, and what they write is registered one after another. -/
theorem loadItems_eq_ok_iff {path : String} {items : List (String × DirectoryItem)} {loaded : Nat}
    {r r' : Registry} (hloaded : loaded ≤ r.config.maxSchemas) :
    (Directory.loadItems path loaded items).ends r = (.ok (), r') ↔
      (∀ stem, (fileName stem, .symlink) ∉ items) ∧
      loaded + (schemaFiles items).length ≤ r.config.maxSchemas ∧
      (∀ f ∈ schemaFiles items, Readable r.config f.2) ∧
      (∀ e ∈ run ((schemaFiles items).map callOfFile) r, e.answer = .ok ()) ∧
      registryAfter ((schemaFiles items).map callOfFile) r = r' := by
  induction items generalizing loaded r with
  | nil =>
    simp [Directory.loadItems, schemaFiles, run, registryAfter, hloaded]
  | cons head rest ih =>
    obtain ⟨file, item⟩ := head
    rcases hname : Directory.schemaName? file with _ | stem
    · have hfiles : schemaFiles [(file, item)] = [] := by simp [schemaFiles, schemaFile?, hname]
      have hne : ∀ stem, fileName stem ≠ file := by
        rintro stem rfl
        rw [schemaName?_eq_some_iff.mpr rfl] at hname
        cases hname
      rw [loadItems_of_not_named hname, ih hloaded, schemaFiles_cons, hfiles, List.nil_append]
      simp [hne]
    cases item with
    | other =>
      have hfiles : schemaFiles [(file, .other)] = [] := by simp [schemaFiles, schemaFile?]
      rw [loadItems_other, ih hloaded, schemaFiles_cons, hfiles, List.nil_append]
      simp
    | symlink =>
      refine iff_of_false (loadItems_link_ne_ok hname) ?_
      rintro ⟨hlinks, -⟩
      rw [schemaName?_eq_some_iff.mp hname] at hlinks
      exact hlinks stem List.mem_cons_self
    | file bytes =>
      have hfiles : schemaFiles [(file, .file bytes)] = [(stem, bytes)] := by
        simp [schemaFiles, schemaFile?, hname]
      have hconfig := config_entry (callOfFile (stem, bytes)) r
      rw [loadItems_file_eq_ok_iff hname, schemaFiles_cons, hfiles, List.singleton_append]
      have hlink : ∀ stem', (fileName stem', .symlink) ∈ (file, DirectoryItem.file bytes) :: rest ↔
          (fileName stem', .symlink) ∈ rest := by simp
      simp only [List.length_cons, List.forall_mem_cons, List.map_cons, run, registryAfter, hlink]
      constructor
      · rintro ⟨hroom, hreadable, hanswer, hrest⟩
        rw [ih (by rw [hconfig]; exact hroom), hconfig] at hrest
        obtain ⟨hlinks, hcount, hreadables, hall, hafter⟩ := hrest
        exact ⟨hlinks, by omega, ⟨hreadable, hreadables⟩, ⟨hanswer, hall⟩, hafter⟩
      · rintro ⟨hlinks, hcount, ⟨hreadable, hreadables⟩, ⟨hanswer, hall⟩, hafter⟩
        refine ⟨by omega, hreadable, hanswer, ?_⟩
        rw [ih (by rw [hconfig]; omega), hconfig]
        exact ⟨hlinks, by omega, hreadables, hall, hafter⟩

/-! ## The registry of a directory -/

section Directory

variable {config : RegistryConfig} {path : String} {items others : List (String × DirectoryItem)}
  {t : τ} {r r' : Registry}

/-- The files can be read and what they write is registered, one after another, exactly if each of
them writes a document that a registry may have under its stem. -/
theorem all_files_succeed_iff (hdistinct : (items.map Prod.fst).Nodup) :
    (∀ f ∈ schemaFiles items, Readable config f.2) ∧
      (∀ e ∈ run ((schemaFiles items).map callOfFile) (.empty config), e.answer = .ok ()) ↔
      ∀ stem bytes, (fileName stem, .file bytes) ∈ items →
        ∃ document, Loads config stem bytes document := by
  have hnames : ((schemaFiles items).map callOfFile).map Call.name =
      (schemaFiles items).map Prod.fst := by
    rw [List.map_map]
    rfl
  have hfree : ∀ name, (Registry.empty config).get? name = none := fun _ => rfl
  rw [all_succeed_iff, hnames]
  simp only [List.forall_mem_map, hfree, nodup_stems hdistinct, and_true, ← registrable_iff,
    ← mem_schemaFiles_iff, ← forall_and, Prod.forall]
  rfl

/-- A directory is loaded exactly if it is loadable, and what comes out is what the calls of its
files leave. -/
theorem ends_ofDirectory_iff (hdistinct : (items.map Prod.fst).Nodup) :
    ((Registry.ofDirectory config ⟨path, .ok items⟩).ends t).1 = .ok r ↔
      Loadable config items ∧
        registryAfter ((schemaFiles items).map callOfFile) (.empty config) = r := by
  have hends : ((Registry.ofDirectory config ⟨path, .ok items⟩).ends t).1 = .ok r ↔
      (Directory.loadItems path 0 items).ends (.empty config) = (.ok (), r) := by
    simp only [Registry.ofDirectory, Attempt.ends_bind, Attempt.ends_ofExcept, Attempt.ends_within,
      Attempt.except_mapError_ok]
    rcases (Directory.loadItems path 0 items).ends (.empty config) with ⟨_ | _, after⟩ <;>
      simp [Except.map]
  rw [hends, loadItems_eq_ok_iff (Nat.zero_le _), Nat.zero_add]
  constructor
  · rintro ⟨hlinks, hcount, hreadable, hall, rfl⟩
    exact ⟨⟨hlinks, hcount, (all_files_succeed_iff hdistinct).mp ⟨hreadable, hall⟩⟩, rfl⟩
  · rintro ⟨h, rfl⟩
    obtain ⟨hreadable, hall⟩ := (all_files_succeed_iff hdistinct).mpr h.files
    exact ⟨h.noLinks, h.few, hreadable, hall, rfl⟩

theorem sorted_registryAfter (calls : List Call) {r : Registry} (h : r.schemas.Sorted) :
    (registryAfter calls r).schemas.Sorted := by
  induction calls generalizing r with
  | nil => exact h
  | cons call rest ih =>
    refine ih ?_
    rcases refuses_or_admits r call with ⟨f, hf⟩ | ⟨document, c, hc⟩
    · rw [entry_of_refuses hf]
      exact h
    · rw [entry_of_admits hc]
      exact h.insert _ _

theorem Loads.document?_eq {stem : String} {bytes : List UInt8} {document : Json}
    (h : Loads config stem bytes document) :
    (callOfFile (stem, bytes)).document? = some document := by
  obtain ⟨text, rfl, hread⟩ := h.written
  rw [callOfFile, Text.Utf8.decode_encode, Call.document?, hread]
  rfl

/-- The documents of the files are what the run of their calls leaves. -/
theorem holds_registryAfter (hdistinct : (items.map Prod.fst).Nodup) (h : Loadable config items) :
    Loading.Holds config items
      (registryAfter ((schemaFiles items).map callOfFile) (.empty config)) := by
  have hall := ((all_files_succeed_iff hdistinct).mpr h.files).2
  have hdocuments : ∀ stem document,
      (∃ s, (registryAfter ((schemaFiles items).map callOfFile) (.empty config)).get? stem = some s ∧
        s.document = document) ↔
      ∃ bytes, (fileName stem, .file bytes) ∈ items ∧ Loads config stem bytes document := by
    intro stem document
    rw [document_of_all_succeed _ hall]
    constructor
    · rintro (⟨s, hs, -⟩ | ⟨call, hcall, rfl, hread⟩)
      · cases hs
      · obtain ⟨⟨stem, bytes⟩, hmem, rfl⟩ := List.mem_map.mp hcall
        have hitem := mem_schemaFiles_iff.mp hmem
        obtain ⟨d, hloads⟩ := h.files stem bytes hitem
        obtain rfl := Option.some.inj (hread.symm.trans hloads.document?_eq)
        exact ⟨bytes, hitem, hloads⟩
    · rintro ⟨bytes, hitem, hloads⟩
      exact .inr ⟨_, List.mem_map_of_mem (mem_schemaFiles_iff.mpr hitem), rfl, hloads.document?_eq⟩
  constructor
  case config_eq => exact config_registryAfter _ _
  case checked => exact checked_registryAfter _ (checked_empty config)
  case sorted => exact sorted_registryAfter _ List.Pairwise.nil
  case documents => exact hdocuments
  case names =>
    intro stem
    rw [Registry.names, Table.mem_keys_iff]
    constructor
    · rintro ⟨s, hs⟩
      obtain ⟨bytes, hitem, -⟩ := (hdocuments stem s.document).mp ⟨s, hs, rfl⟩
      exact ⟨bytes, hitem⟩
    · rintro ⟨bytes, hitem⟩
      obtain ⟨d, hloads⟩ := h.files stem bytes hitem
      obtain ⟨s, hs, -⟩ := (hdocuments stem d).mpr ⟨bytes, hitem, hloads⟩
      exact ⟨s, hs⟩

/-- What a registry remembers of a document is determined by the document and the settings. -/
theorem get?_of_holds {stem : String} {s : CachedSchema} (h : Loading.Holds config items r)
    (h' : Loading.Holds config items r') (hs : r.get? stem = some s) : r'.get? stem = some s := by
  obtain ⟨s', hs', hdocument⟩ :=
    (h'.documents stem s.document).mpr ((h.documents stem s.document).mp ⟨s, hs, rfl⟩)
  obtain ⟨c, hc, hcell⟩ := h.checked.compiled stem s hs
  obtain ⟨c', hc', hcell'⟩ := h'.checked.compiled stem s' hs'
  rw [h.config_eq] at hc hcell
  rw [h'.config_eq, hdocument] at hc'
  rw [h'.config_eq] at hcell'
  obtain rfl := Except.ok.inj (hc.symm.trans hc')
  obtain ⟨document, cell⟩ := s
  obtain ⟨document', cell'⟩ := s'
  obtain rfl : document' = document := hdocument
  obtain rfl : cell = _ := hcell
  obtain rfl : cell' = _ := hcell'
  exact hs'

theorem eq_of_holds (h : Loading.Holds config items r) (h' : Loading.Holds config items r') :
    r = r' := by
  have hschemas : r.schemas = r'.schemas := by
    refine h.sorted.ext h'.sorted fun stem => ?_
    ext s
    exact ⟨get?_of_holds h h', get?_of_holds h' h⟩
  obtain ⟨config', schemas⟩ := r
  obtain rfl : schemas = _ := hschemas
  obtain rfl : config' = _ := h.config_eq
  exact congrArg (Registry.mk · _) h'.config_eq.symm

/-- The registry that comes out is the one that holds the documents of the files. -/
theorem ends_ofDirectory_eq_ok_iff (hdistinct : (items.map Prod.fst).Nodup) :
    ((Registry.ofDirectory config ⟨path, .ok items⟩).ends t).1 = .ok r ↔
      Loadable config items ∧ Loading.Holds config items r := by
  rw [ends_ofDirectory_iff hdistinct]
  constructor
  · rintro ⟨h, rfl⟩
    exact ⟨h, holds_registryAfter hdistinct h⟩
  · rintro ⟨h, hr⟩
    exact ⟨h, eq_of_holds (holds_registryAfter hdistinct h) hr⟩

/-! ## Other listings -/

theorem SameSchemaEntries.symm (h : SameSchemaEntries others items) :
    SameSchemaEntries items others := fun stem item hitem => (h stem item hitem).symm

theorem SameSchemaEntries.of_perm (h : others.Perm items) : SameSchemaEntries others items :=
  fun _ _ _ => h.mem_iff

theorem SameSchemaEntries.mem_file_iff (h : SameSchemaEntries others items) (stem : String)
    (bytes : List UInt8) :
    (fileName stem, .file bytes) ∈ others ↔ (fileName stem, .file bytes) ∈ items :=
  h stem (.file bytes) (by simp)

theorem SameSchemaEntries.length_eq (h : SameSchemaEntries others items)
    (hothers : (others.map Prod.fst).Nodup) (hdistinct : (items.map Prod.fst).Nodup) :
    (schemaFiles others).length = (schemaFiles items).length := by
  refine ((List.perm_ext_iff_of_nodup (nodup_stems hothers).of_map
    (nodup_stems hdistinct).of_map).mpr ?_).length_eq
  rintro ⟨stem, bytes⟩
  rw [mem_schemaFiles_iff, mem_schemaFiles_iff, h.mem_file_iff]

theorem SameSchemaEntries.loadable_iff (h : SameSchemaEntries others items)
    (hothers : (others.map Prod.fst).Nodup) (hdistinct : (items.map Prod.fst).Nodup) :
    Loadable config others ↔ Loadable config items := by
  have hlink : ∀ stem, (fileName stem, .symlink) ∈ others ↔ (fileName stem, .symlink) ∈ items :=
    fun stem => h stem .symlink (by simp)
  constructor
  · rintro ⟨hlinks, hfew, hfiles⟩
    simp only [hlink, h.mem_file_iff, h.length_eq hothers hdistinct] at hlinks hfew hfiles
    exact ⟨hlinks, hfew, hfiles⟩
  · rintro ⟨hlinks, hfew, hfiles⟩
    simp only [← hlink, ← h.mem_file_iff, ← h.length_eq hothers hdistinct] at hlinks hfew hfiles
    exact ⟨hlinks, hfew, hfiles⟩

theorem SameSchemaEntries.holds (h : SameSchemaEntries others items)
    (hr : Loading.Holds config others r) : Loading.Holds config items r := by
  obtain ⟨hconfig, hchecked, hsorted, hnames, hdocuments⟩ := hr
  simp only [h.mem_file_iff] at hnames hdocuments
  exact ⟨hconfig, hchecked, hsorted, hnames, hdocuments⟩

theorem SameSchemaEntries.alike (h : SameSchemaEntries others items)
    (hothers : (others.map Prod.fst).Nodup) (hdistinct : (items.map Prod.fst).Nodup) :
    Alike ((Registry.ofDirectory config ⟨path, .ok others⟩).ends t).1
      ((Registry.ofDirectory config ⟨path, .ok items⟩).ends t).1 := by
  have hsame : ∀ r, ((Registry.ofDirectory config ⟨path, .ok others⟩).ends t).1 = .ok r ↔
      ((Registry.ofDirectory config ⟨path, .ok items⟩).ends t).1 = .ok r := by
    intro r
    rw [ends_ofDirectory_eq_ok_iff hothers, ends_ofDirectory_eq_ok_iff hdistinct,
      h.loadable_iff hothers hdistinct]
    exact and_congr_right fun _ => ⟨h.holds, h.symm.holds⟩
  rcases hf : ((Registry.ofDirectory config ⟨path, .ok others⟩).ends t).1 with f | r
  · rcases hg : ((Registry.ofDirectory config ⟨path, .ok items⟩).ends t).1 with g | r
    · exact .inr ⟨f, g, rfl, rfl⟩
    · rw [(hsame r).mpr hg] at hf
      cases hf
  · exact .inl ⟨r, rfl, (hsame r).mp hf⟩

/-- A directory is loaded exactly if no entry with the suffix is a link, at most so many of them as
the settings say are regular files, and each of these has a stem that is well formed and writes, in
as many bytes as are allowed, a document that compiles. The registry then holds exactly these
stems with these documents. In whatever order the entries are listed, the loading fails or gives
the same registry; and so it does beside other entries without the suffix or that are no files. -/
theorem directory_loads_iff (config : RegistryConfig) (path : String)
    {items : List (String × DirectoryItem)} (hdistinct : (items.map Prod.fst).Nodup) (t : τ) :
    ((∃ r, ((Registry.ofDirectory config ⟨path, .ok items⟩).ends t).1 = .ok r) ↔
      Loadable config items) ∧
    (∀ r, ((Registry.ofDirectory config ⟨path, .ok items⟩).ends t).1 = .ok r →
      Loading.Holds config items r) ∧
    (∀ others, others.Perm items →
      Alike ((Registry.ofDirectory config ⟨path, .ok others⟩).ends t).1
        ((Registry.ofDirectory config ⟨path, .ok items⟩).ends t).1) ∧
    ∀ others, (others.map Prod.fst).Nodup → SameSchemaEntries others items →
      Alike ((Registry.ofDirectory config ⟨path, .ok others⟩).ends t).1
        ((Registry.ofDirectory config ⟨path, .ok items⟩).ends t).1 := by
  refine ⟨⟨?_, ?_⟩, ?_, ?_, ?_⟩
  · rintro ⟨r, hr⟩
    exact ((ends_ofDirectory_eq_ok_iff hdistinct).mp hr).1
  · intro h
    exact ⟨_, (ends_ofDirectory_iff hdistinct).mpr ⟨h, rfl⟩⟩
  · intro r hr
    exact ((ends_ofDirectory_eq_ok_iff hdistinct).mp hr).2
  · intro others hperm
    exact (SameSchemaEntries.of_perm hperm).alike
      ((hperm.map Prod.fst).nodup_iff.mpr hdistinct) hdistinct
  · intro others hothers hsame
    exact hsame.alike hothers hdistinct

/-- A directory with one document, beside which there is a link and a directory. -/
theorem profile_directory_loads :
    ([("profile.schema.json", .file [123, 125]), ("notes.txt", .symlink),
      ("old.schema.json", .other)].map (Prod.fst : String × DirectoryItem → String)).Nodup ∧
    Loadable {} [("profile.schema.json", .file [123, 125]), ("notes.txt", .symlink),
      ("old.schema.json", .other)] := by
  have hdistinct : ([("profile.schema.json", .file [123, 125]), ("notes.txt", .symlink),
      ("old.schema.json", .other)].map (Prod.fst : String × DirectoryItem → String)).Nodup := by
    decide
  exact ⟨hdistinct, (directory_loads_iff {} "schemas" hdistinct ()).1.mp ⟨_, rfl⟩⟩

end Directory

end Loading

end GuardedCall
