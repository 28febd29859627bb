-- SUMMARY: The assembler: what it reads and validates, how it renders pages, and the calls with which it replaces the generated directory.
import Go42.Lib.FileTree
import Go42.Pages.Index
import Go42.Pages.References
import Go42.Pages.Render

/-!
# The assembler

All sources are read, validated and rendered before the first call that changes the disk.
The parser and printer of Markdown, the YAML library and the listing of files are libraries
of the tool.
-/

namespace Go42.Pages

open Posix FileTree

/-! ## Sources -/

abbrev Disk := FileTree.Disk Name String

/-- What `existsSync` and `statSync` tell. -/
def filesOf (disk : Disk) : Files := fun p => (disk p).map fun
  | .file _ => .file
  | .directory => .directory

structure Libraries where
  /-- `yaml.load`: a mapping by its checked fields and by the text it is dumped to, and `none`
  for any other value. -/
  yamlLoad : String → Except String (Option (Metadata × String))
  /-- `markdown.parse`. -/
  parse : String → Node
  /-- `markdown.stringify`. -/
  stringify : Node → String
  /-- `globSync('**/*.md', …).sort()` below the directory of a collection. -/
  glob : Disk → Collection → List File
  glob_nodup : ∀ disk collection, (glob disk collection).Nodup
  glob_md : ∀ disk collection, ∀ file ∈ glob disk collection,
    ".md".toList <:+ file.names.getLast file.ne_nil

/-- `\r?\n`: what follows it. -/
def lineBreak : List Char → Option (List Char)
  | '\n' :: rest => some rest
  | '\r' :: '\n' :: rest => some rest
  | _ => none

/-- `---`: what follows it. -/
def fence : List Char → Option (List Char)
  | '-' :: '-' :: '-' :: rest => some rest
  | _ => none

/-- `\r?\n---(?:\r?\n|$)`: what follows it. -/
def closing (text : List Char) : Option (List Char) := do
  let rest ← fence (← lineBreak text)
  if rest = [] then some [] else lineBreak rest

/-- The shortest text before a closing fence, and what follows the fence. -/
def untilClosing : List Char → Option (List Char × List Char)
  | [] => none
  | c :: cs =>
    match closing (c :: cs) with
    | some body => some ([], body)
    | none => (untilClosing cs).map fun r => (c :: r.1, r.2)

/-- `/^---\r?\n([\s\S]*?)\r?\n---(?:\r?\n|$)/`: the front matter and the body. -/
def frontMatter (text : String) : Option (String × String) := do
  let r ← untilClosing (← lineBreak (← fence text.toList))
  return (String.ofList r.1, String.ofList r.2)

/-- A page with the parts of it that are not validated. -/
structure Document where
  page : Page
  tree : Node
  /-- `yaml.dump(page.metadata, …)`. -/
  dump : String

/-- The metadata of a page without front matter. -/
def noFields : Metadata :=
  ⟨.undefined, .undefined, .undefined, .undefined, .undefined, .undefined, .undefined, .undefined⟩

/-- `pages/docs/…`. -/
def Place.source : Place → String
  | .overview => "docs/README.md"
  | .record collection file => "docs/" ++ collection.name ++ "/" ++ file.path

section Assemble

variable (lib : Libraries) (cwd root : List Name) (disk : Disk)

/-- The reading half of `readPage`. -/
def readSource (source : String) : Except String (Metadata × String × Node) :=
  match disk (resolve root source.toList) with
  | some (.file text) =>
    match frontMatter text with
    | none => return (noFields, "\x7b\x7d\n", lib.parse text)
    | some (yaml, body) => do
      match ← lib.yamlLoad yaml with
      | none => throw (source ++ ": front matter must be a YAML mapping")
      | some (metadata, dump) => return (metadata, dump, lib.parse body)
  | _ => throw ("ENOENT: no such file or directory, open " ++ source)

def readDocument (place : Place) : Except String Document := do
  let (metadata, dump, tree) ← readSource lib root disk place.source
  return ⟨readPage (fun _ => metadata) place, tree, dump⟩

/-- The pages in the order in which they are read. -/
def places : List Place :=
  .overview :: collections.flatMap fun collection => (lib.glob disk collection).map (.record collection)

/-- The round of the validating loop for one page. -/
def validateDocument (ids : Ids) (document : Document) : Except String Ids := do
  let ids ← validateMetadata document.page ids
  (document.tree.kinds.filterMap Kind.url).forM fun url => do
    let _ ← localTarget (filesOf disk) root document.page (some url)
  return ids

/-- The index of the first document. -/
def validateOverview (documents : List Document) : Except String Unit :=
  match documents with
  | [] => .error "Cannot read properties of undefined"
  | overview :: _ =>
    validateIndex (filesOf disk) root (documents.map Document.page) overview.tree

/-- The walk over replacements takes a step for each page and one more at most. -/
def loadDocumentation : Except String (List Document × Ids) := do
  let documents ← (places lib disk).mapM (readDocument lib root disk)
  let ids ← documents.foldlM (validateDocument root disk) []
  let pages := documents.map Document.page
  (validateReferences (pages.length + 1) ids pages).getD (.error "unreachable")
  validateOverview root disk documents
  return (documents, ids)

/-! ## Rendering -/

/-- `{repository, revision, dirty}`, with `revision.slice(0, 12)`. -/
structure BuildContext extends Context where
  shortRevision : String
  dirty : Bool

/-- `[label](url)`. -/
def markdownLink (label url : String) : String := "[" ++ label ++ "](" ++ url ++ ")"

/-- A link to the page of an id, as a notice holds it. -/
def idLink (ids : Ids) (page : Page) (label : Page → String) (id : Value) : Except String String :=
  match ids.get id with
  | none => .error "Cannot read properties of undefined"
  | some next => .ok (markdownLink (label next) (relative cwd page.target next.target))

/-- What stands under the title. -/
def notices (ids : Ids) (page : Page) : Except String (List String) := do
  let metadata := page.metadata
  let record ←
    if page.collection = .templates then
      pure ["**Authoring resource.** Copy a template into the appropriate collection and replace its prompts."]
    else if (statuses page.collection).isSome then do
      let recorded := if metadata.date.truthy then ["**Recorded:** " ++ metadata.date.text] else []
      let replaced ← if metadata.supersededBy.truthy then
          (fun link => ["**Replaced by:** " ++ link]) <$>
            idLink cwd ids page (fun next => next.metadata.id.text) metadata.supersededBy
        else pure []
      pure (("**Status:** " ++ metadata.status.text) :: (recorded ++ replaced))
    else pure []
  if metadata.related.strings = [] then return record
  else do
    let links ← metadata.related.strings.mapM fun id => idLink cwd ids page (fun _ => id) (.str id)
    return record ++ ["**Related:** " ++ ", ".intercalate links]

/-- `tree.children.splice(heading + 1, 0, ...)`: after the first heading of depth one, or first. -/
def insertNotices (nodes children : List Node) : List Node :=
  let after := match children.findIdx? fun node => node.kind = .heading 1 with
    | some heading => heading + 1
    | none => 0
  children.take after ++ nodes ++ children.drop after

def footer (context : BuildContext) (page : Page) (url : String) : String :=
  "\n---\n\nSource: " ++ markdownLink page.source url ++ ". Revision: `" ++ context.shortRevision ++ "`" ++
    (if context.dirty then " with local changes" else "") ++ ".\n"

/-- `renderPage` with its text. -/
def renderDocument (context : BuildContext) (bundle : Bundle) (ids : Ids) (document : Document) :
    Except String String := do
  let page := document.page
  let tree ← renderPage (filesOf disk) cwd bundle context.toContext page document.tree
  let lines ← notices cwd ids page
  let noticeTree := lib.parse ("\n>\n".intercalate (lines.map fun notice => "> " ++ notice))
  let source ← sourceURL context.toContext page.source false
  let footerTree := lib.parse (footer context page source)
  let children := insertNotices noticeTree.children tree.children ++ footerTree.children
  return "---\n" ++ document.dump ++ "---\n\n" ++ lib.stringify (.node tree.kind none children)

/-- Everything before the first change of the disk. -/
def prepare (context : BuildContext) : Except String (List (Page × String)) := do
  let (documents, ids) ← loadDocumentation lib root disk
  let bundle : Bundle := ⟨root, documents.map Document.page⟩
  documents.mapM fun document => do
    return (document.page, ← renderDocument lib cwd disk context bundle ids document)

/-! ## Writing -/

def Collection.label : Collection → String
  | .overview => ""
  | .handbook => "Handbook"
  | .requirements => "Requirements"
  | .decisions => "Decisions"
  | .templates => "Authoring templates"

def Collection.description : Collection → String
  | .overview => ""
  | .handbook => "The current application and how to work with it."
  | .requirements => "Required outcomes, behavior, and verification."
  | .decisions => "Significant choices and their reasoning."
  | .templates => "Starting points for authors; these are not project records."

/-- A collection of records that has none. -/
def isEmptyCollection (pages : List Page) (collection : Collection) : Bool :=
  (statuses collection).isSome && !pages.any (·.collection = collection)

/-- The page of an empty collection. -/
def placeholder (collection : Collection) : String :=
  "---\nid: index\ntitle: " ++ collection.label ++ "\nslug: /category/" ++ collection.name ++ "\n---\n\n# " ++
    collection.label ++ "\n\nNo application " ++ collection.name ++ " are recorded yet. " ++
    "Create a record using the [authoring templates](../index.md#templates).\n"

/-- `JSON.stringify(category, null, 2)` and a line break. -/
def categoryJSON (position : ℕ) (collection : Collection) (empty : Bool) : String :=
  "\x7b\n  \"label\": \"" ++ collection.label ++ "\",\n  \"position\": " ++ toString position ++
    ",\n  \"collapsed\": true,\n  \"link\": \x7b\n" ++
    (if empty then "    \"type\": \"doc\",\n    \"id\": \"index\"\n"
      else "    \"type\": \"generated-index\",\n    \"description\": \"" ++ collection.description ++ "\"\n") ++
    "  \x7d\n\x7d\n"

abbrev DiskProg (α : Type) := Prog (FileTree.Cmd Name String) FileTree.Cmd.Res α

def rmSync (p : List Name) : DiskProg Unit := Prog.call (.remove p)
def mkdirSync (p : List Name) : DiskProg Unit := Prog.call (.makeDirectory p)
def writeFileSync (p : List Name) (text : String) : DiskProg Unit := Prog.call (.writeFile p text)

def indexName : Name := "index.md".toList
def categoryName : Name := "_category_.json".toList

def writePage (rendered : Page × String) : DiskProg Unit := do
  let target := generated root rendered.1
  mkdirSync target.dropLast
  writeFileSync target rendered.2

def writePlaceholder (directory : List Name) (collection : Collection) (empty : Bool) : DiskProg Unit :=
  if empty then writeFileSync (directory ++ [indexName]) (placeholder collection) else return ()

def writeCollection (pages : List Page) (entry : Collection × ℕ) : DiskProg Unit := do
  let (collection, index) := entry
  let directory := output root ++ [collection.name.toList]
  mkdirSync directory
  let empty := isEmptyCollection pages collection
  writePlaceholder directory collection empty
  writeFileSync (directory ++ [categoryName]) (categoryJSON (index + 2) collection empty)

def assemble (context : BuildContext) : DiskProg ℕ :=
  match prepare lib cwd root disk context with
  | .error message => Prog.fail (.leaf message)
  | .ok rendered => do
    rmSync (output root)
    mkdirSync (output root)
    rendered.forM (writePage root)
    collections.zipIdx.forM (writeCollection root (rendered.map Prod.fst))
    return rendered.length

end Assemble

/-! ## What was read -/

theorem mapM_forall₂ {α β ε : Type} {f : α → Except ε β} : ∀ {l : List α} {l' : List β},
    l.mapM f = .ok l' → List.Forall₂ (fun a b => f a = .ok b) l l'
  | [], l', h => by
      cases h
      exact .nil
  | a :: l, l', h => by
      simp only [List.mapM_cons, bind_ok, pure_ok] at h
      obtain ⟨b, hb, l', hl', rfl⟩ := h
      exact .cons hb (mapM_forall₂ hl')

theorem map_eq_of_forall₂ {α β γ : Type} {f : α → γ} {g : β → γ} {l : List α} {l' : List β}
    (h : List.Forall₂ (fun a b => f a = g b) l l') : l.map f = l'.map g := by
  induction h with
  | nil => rfl
  | cons hab _ ih => rw [List.map_cons, List.map_cons, hab, ih]

section Read

variable {lib : Libraries} {cwd root : List Name} {disk : Disk}

/-- The metadata that a source has. -/
def metadataOf (lib : Libraries) (root : List Name) (disk : Disk) (source : String) : Metadata :=
  match readSource lib root disk source with
  | .ok r => r.1
  | .error _ => noFields

theorem readDocument_page {place : Place} {document : Document}
    (h : readDocument lib root disk place = .ok document) :
    readPage (metadataOf lib root disk) place = document.page := by
  simp only [readDocument, bind_ok, pure_ok] at h
  obtain ⟨⟨metadata, dump, tree⟩, hread, rfl⟩ := h
  have hmetadata : metadataOf lib root disk place.source = metadata := by
    rw [metadataOf, hread]
  cases place with
  | overview => simp only [readPage, Place.source] at hmetadata ⊢; rw [hmetadata]
  | record collection file => simp only [readPage, Place.source] at hmetadata ⊢; rw [hmetadata]

theorem loadPages_eq (metadata : String → Metadata) :
    (places lib disk).map (readPage metadata) = loadPages (lib.glob disk) metadata := by
  simp only [places, loadPages, List.map_cons, List.map_flatMap, List.map_map]
  rfl

/-- The loop over documents is the one over pages, and all that it adds are checks of links. -/
theorem validateDocuments_ok {documents : List Document} {ids ids' : Ids}
    (h : documents.foldlM (validateDocument root disk) ids = .ok ids') :
    (documents.map Document.page).foldlM (fun ids page => validateMetadata page ids) ids = .ok ids' := by
  induction documents generalizing ids with
  | nil => exact h
  | cons document documents ih =>
      simp only [List.foldlM_cons, bind_ok, validateDocument, pure_ok] at h
      obtain ⟨ids₁, ⟨ids₂, hmetadata, _, -, rfl⟩, hrest⟩ := h
      rw [List.map_cons, List.foldlM_cons, hmetadata]
      exact ih hrest

theorem loadDocumentation_ok {documents : List Document} {ids : Ids}
    (h : loadDocumentation lib root disk = .ok (documents, ids)) :
    documents.map Document.page = loadPages (lib.glob disk) (metadataOf lib root disk) ∧
      validatePages (documents.map Document.page) = .ok ids ∧
      validateReferences ((documents.map Document.page).length + 1) ids
        (documents.map Document.page) = some (.ok ()) := by
  simp only [loadDocumentation, bind_ok, pure_ok] at h
  obtain ⟨documents', hread, ids', hvalid, _, hreferences, _, -, heq⟩ := h
  obtain ⟨rfl, rfl⟩ := Prod.mk.inj heq
  have hpages := map_eq_of_forall₂ ((mapM_forall₂ hread).imp fun _ _ => readDocument_page)
  refine ⟨?_, validateDocuments_ok hvalid, ?_⟩
  · rw [← hpages, loadPages_eq]
  · cases hwalk : validateReferences ((documents'.map Document.page).length + 1) ids'
        (documents'.map Document.page) with
    | none => rw [hwalk] at hreferences; cases hreferences
    | some r => rw [hwalk] at hreferences; rw [← hreferences]; rfl

theorem prepare_ok {context : BuildContext} {rendered : List (Page × String)}
    (h : prepare lib cwd root disk context = .ok rendered) :
    ∃ documents ids, loadDocumentation lib root disk = .ok (documents, ids) ∧
      List.Forall₂ (fun (document : Document) (r : Page × String) => r.1 = document.page ∧
        renderDocument lib cwd disk context ⟨root, documents.map Document.page⟩ ids document = .ok r.2)
        documents rendered := by
  simp only [prepare, bind_ok] at h
  obtain ⟨⟨documents, ids⟩, hload, hrender⟩ := h
  refine ⟨documents, ids, hload, (mapM_forall₂ hrender).imp fun document r hr => ?_⟩
  simp only [bind_ok, pure_ok] at hr
  obtain ⟨text, htext, rfl⟩ := hr
  exact ⟨rfl, htext⟩

theorem prepare_pages {context : BuildContext} {rendered : List (Page × String)}
    (h : prepare lib cwd root disk context = .ok rendered) :
    rendered.map Prod.fst = loadPages (lib.glob disk) (metadataOf lib root disk) := by
  obtain ⟨documents, ids, hload, hrendered⟩ := prepare_ok h
  rw [← (loadDocumentation_ok hload).1]
  exact (map_eq_of_forall₂ (hrendered.imp fun _ _ hr => hr.1.symm)).symm

end Read

/-! ## Where it is written -/

/-- The names of a page's target. -/
def Page.names (page : Page) : List Name := split page.target.toList

def Place.names : Place → List Name
  | .overview => [indexName]
  | .record collection file => collection.name.toList :: file.names

theorem proper_names (place : Place) : ∀ name ∈ place.names, Proper name := by
  cases place with
  | overview =>
      exact List.forall_mem_singleton.mpr ⟨by decide, by decide, by decide, by decide⟩
  | record collection file =>
      refine List.forall_mem_cons.mpr ⟨?_, file.proper⟩
      cases collection <;> exact ⟨by decide, by decide, by decide, by decide⟩

theorem Place.names_ne_nil (place : Place) : place.names ≠ [] := by
  cases place <;> exact List.cons_ne_nil _ _

theorem target_readPage (metadata : String → Metadata) (place : Place) :
    (readPage metadata place).target.toList = join place.names := by
  cases place with
  | overview =>
      show indexName = join [indexName]
      simp only [join, List.intercalate_singleton]
  | record collection file =>
      rw [Place.names, join_cons_of_ne_nil _ file.ne_nil]
      simp [readPage, File.path]

theorem names_readPage (metadata : String → Metadata) (place : Place) :
    (readPage metadata place).names = place.names := by
  rw [Page.names, target_readPage, split_join (proper_names place) place.names_ne_nil]

theorem generated_readPage (root : List Name) (metadata : String → Metadata) (place : Place) :
    generated root (readPage metadata place) = output root ++ place.names := by
  rw [generated, target_readPage, resolve_join (proper_names place) place.names_ne_nil]

theorem Collection.name_injective {a b : Collection} (h : a.name.toList = b.name.toList) : a = b := by
  revert h
  cases a <;> cases b <;> decide

theorem Place.names_injective {a b : Place} (h : a.names = b.names) : a = b := by
  cases a with
  | overview =>
      cases b with
      | overview => rfl
      | record collection file => exact absurd (List.cons.inj h).2.symm file.ne_nil
  | record collection file =>
      cases b with
      | overview => exact absurd (List.cons.inj h).2 file.ne_nil
      | record collection' file' =>
          obtain ⟨hname, hnames⟩ := List.cons.inj h
          rw [Collection.name_injective hname]
          congr 1
          cases file
          cases file'
          cases hnames
          rfl

/-- No two places are written to the same file. -/
theorem names_nodup (lib : Libraries) (disk : Disk) : ((places lib disk).map Place.names).Nodup := by
  apply List.Nodup.map fun _ _ h => Place.names_injective h
  refine List.nodup_cons.mpr ⟨?_, List.nodup_flatMap.mpr ⟨?_, ?_⟩⟩
  · simp
  · exact fun collection _ =>
      (lib.glob_nodup disk collection).map fun _ _ h => (Place.record.inj h).2
  · have hdistinct : collections.Pairwise (· ≠ ·) := by decide
    refine hdistinct.imp fun hne => ?_
    simp only [Function.onFun, List.disjoint_left, List.mem_map]
    rintro place ⟨file, -, rfl⟩ ⟨file', -, heq⟩
    exact hne (Place.record.inj heq).1.symm

/-- The files of a collection besides its pages. -/
def collectionFiles (pages : List Page) (entry : Collection × ℕ) : List (List Name × String) :=
  let empty := isEmptyCollection pages entry.1
  ([entry.1.name.toList, categoryName], categoryJSON (entry.2 + 2) entry.1 empty) ::
    (if empty then [([entry.1.name.toList, indexName], placeholder entry.1)] else [])

/-- All files of the generated directory. -/
def site (rendered : List (Page × String)) : List (List Name × String) :=
  rendered.map (fun r => (r.1.names, r.2)) ++
    collections.zipIdx.flatMap (collectionFiles (rendered.map Prod.fst))

/-- A page of a collection has a longer path than its category file, or another name. -/
theorem names_ne_category {lib : Libraries} {disk : Disk} {place : Place} (hplace : place ∈ places lib disk)
    (name : Name) : place.names ≠ [name, categoryName] := by
  intro heq
  cases place with
  | overview => exact absurd (List.cons.inj heq).2 (by simp)
  | record collection file =>
      have hnames : file.names = [categoryName] := (List.cons.inj heq).2
      have hfile : file ∈ lib.glob disk collection := by
        rcases List.mem_cons.mp hplace with h | h
        · cases h
        · obtain ⟨c, -, h⟩ := List.mem_flatMap.mp h
          obtain ⟨f, hf, heq⟩ := List.mem_map.mp h
          cases heq
          exact hf
      have hmd := lib.glob_md disk collection file hfile
      simp only [hnames, List.getLast_singleton] at hmd
      exact absurd hmd (by decide)

theorem collection_readPage {metadata : String → Metadata} {place : Place} {collection : Collection}
    {names : List Name} (h : place.names = collection.name.toList :: names) (hne : names ≠ []) :
    (readPage metadata place).collection = collection := by
  cases place with
  | overview => exact absurd (List.cons.inj h).2.symm hne
  | record c file => exact Collection.name_injective (List.cons.inj h).1

theorem collectionFiles_nodup (pages : List Page) :
    ((collections.zipIdx.flatMap (collectionFiles pages)).map Prod.fst).Nodup := by
  simp only [collections, List.zipIdx_cons, List.zipIdx_nil, List.flatMap_cons, List.flatMap_nil,
    collectionFiles]
  cases isEmptyCollection pages .handbook <;> cases isEmptyCollection pages .requirements <;>
    cases isEmptyCollection pages .decisions <;> cases isEmptyCollection pages .templates <;> decide

theorem mem_collectionFiles {pages : List Page} {entry : Collection × ℕ} {f : List Name × String}
    (h : f ∈ collectionFiles pages entry) :
    f.1 = [entry.1.name.toList, categoryName] ∨
      (isEmptyCollection pages entry.1 = true ∧ f.1 = [entry.1.name.toList, indexName]) := by
  rcases List.mem_cons.mp h with rfl | h
  · exact .inl rfl
  · split at h
    · rename_i hempty
      exact .inr ⟨hempty, by rw [List.mem_singleton.mp h]⟩
    · cases h

section Site

variable {lib : Libraries} {cwd root : List Name} {disk : Disk} {context : BuildContext}
variable {rendered : List (Page × String)}

/-- Every page that was rendered is at a place that was read. -/
theorem exists_place (h : prepare lib cwd root disk context = .ok rendered) {r : Page × String}
    (hr : r ∈ rendered) :
    ∃ place ∈ places lib disk, r.1 = readPage (metadataOf lib root disk) place := by
  have hmem : r.1 ∈ rendered.map Prod.fst := List.mem_map_of_mem hr
  rw [prepare_pages h, ← loadPages_eq] at hmem
  obtain ⟨place, hplace, heq⟩ := List.mem_map.mp hmem
  exact ⟨place, hplace, heq.symm⟩

theorem site_nodup (h : prepare lib cwd root disk context = .ok rendered) :
    ((site rendered).map Prod.fst).Nodup := by
  have hpages : (rendered.map fun r => r.1.names) = (places lib disk).map Place.names := by
    have hnames : (rendered.map Prod.fst).map Page.names =
        ((places lib disk).map (readPage (metadataOf lib root disk))).map Page.names := by
      rw [prepare_pages h, loadPages_eq]
    simpa [Function.comp_def, names_readPage] using hnames
  rw [site, List.map_append, List.nodup_append]
  refine ⟨?_, collectionFiles_nodup _, ?_⟩
  · rw [List.map_map]
    exact hpages ▸ names_nodup lib disk
  · intro path hpath path' hpath' heq
    subst heq
    rw [List.map_map] at hpath
    obtain ⟨r, hr, hnames⟩ := List.mem_map.mp hpath
    obtain ⟨place, hplace, hpage⟩ := exists_place h hr
    have hplaceNames : place.names = path := by
      rw [← hnames, Function.comp_apply, hpage, names_readPage]
    obtain ⟨f, hf, hfpath⟩ := List.mem_map.mp hpath'
    obtain ⟨entry, -, hf⟩ := List.mem_flatMap.mp hf
    rcases mem_collectionFiles hf with hcategory | ⟨hempty, hindex⟩
    · exact names_ne_category hplace _ (hplaceNames.trans (hfpath.symm.trans hcategory))
    · -- A collection that has a page is not empty.
      have hcollection : r.1.collection = entry.1 := by
        rw [hpage]
        exact collection_readPage (hplaceNames.trans (hfpath.symm.trans hindex)) (List.cons_ne_nil _ _)
      simp only [isEmptyCollection, Bool.and_eq_true, Bool.not_eq_true', List.any_eq_false,
        decide_eq_true_eq] at hempty
      exact hempty.2 r.1 (List.mem_map_of_mem hr) hcollection

/-! ## Writing it -/

variable {files : List (List Name × String)} {dirs : List (List Name)} {disk₀ : Disk}

theorem writePage_takes {metadata : String → Metadata} {place : Place} {r : Page × String}
    (hr : r.1 = readPage metadata place)
    (hnodup : (((r.1.names, r.2) :: files).map Prod.fst).Nodup) :
    Takes (output root) disk₀ files dirs (writePage root r) ((r.1.names, r.2) :: files)
      (r.1.names.dropLast :: dirs) := by
  have hgenerated : generated root r.1 = output root ++ r.1.names := by
    rw [hr, generated_readPage, names_readPage]
  have hdirectory : (generated root r.1).dropLast = output root ++ r.1.names.dropLast := by
    rw [hgenerated]
    apply List.dropLast_append_of_ne_nil
    rw [hr, names_readPage]
    exact place.names_ne_nil
  unfold writePage
  dsimp only
  rw [hdirectory, hgenerated]
  exact Takes.seq (takes_makeDirectory _) fun _ =>
    takes_writeFile r.2 (List.nodup_cons.mp hnodup).1

theorem writeCollection_takes {pages : List Page} {entry : Collection × ℕ}
    (hnodup : ((collectionFiles pages entry ++ files).map Prod.fst).Nodup) :
    Takes (output root) disk₀ files dirs (writeCollection root pages entry)
      (collectionFiles pages entry ++ files) ([entry.1.name.toList] :: dirs) := by
  unfold writeCollection writePlaceholder
  dsimp only
  simp only [List.append_assoc, List.singleton_append]
  refine Takes.seq (takes_makeDirectory _) fun _ => ?_
  cases hempty : isEmptyCollection pages entry.1 with
  | false =>
      simp only [collectionFiles, hempty, Bool.false_eq_true, if_false, List.singleton_append,
        List.map_cons, List.nodup_cons] at hnodup ⊢
      exact Takes.seq (takes_pure _) fun _ => takes_writeFile _ hnodup.1
  | true =>
      simp only [collectionFiles, hempty, if_true, List.cons_append, List.nil_append, List.map_cons,
        List.nodup_cons] at hnodup ⊢
      exact Takes.seq (takes_writeFile _ hnodup.2.1) fun _ => takes_writeFile _ hnodup.1

/-- The two loops, over a directory that was cleared. -/
theorem write_takes (h : prepare lib cwd root disk context = .ok rendered) :
    ∃ files dirs, Takes (output root) disk₀ [] [[]]
      (do
        rendered.forM (writePage root)
        collections.zipIdx.forM (writeCollection root (rendered.map Prod.fst))
        return rendered.length : DiskProg ℕ)
      files dirs ∧ files.Perm (site rendered) ∧
      dirs.Perm (collections.zipIdx.map (fun entry => [entry.1.name.toList]) ++
        (rendered.map (fun r => r.1.names.dropLast) ++ [[]])) := by
  have hsite := site_nodup h
  have hpageFiles : rendered.flatMap (fun r => [(r.1.names, r.2)]) =
      rendered.map fun r => (r.1.names, r.2) := List.map_eq_flatMap.symm
  have hpages : ((rendered.flatMap (fun r => [(r.1.names, r.2)]) ++
      ([] : List (List Name × String))).map Prod.fst).Nodup := by
    rw [List.append_nil, hpageFiles]
    rw [site, List.map_append] at hsite
    exact (List.nodup_append.mp hsite).1
  obtain ⟨files₁, dirs₁, htakes₁, hfiles₁, hdirs₁⟩ := takes_forM disk₀ [[]] (writePage root)
    (fun r => [(r.1.names, r.2)]) (fun r => [r.1.names.dropLast]) hpages
    fun r hr files dirs hnodup => by
      obtain ⟨place, -, hplace⟩ := exists_place h hr
      exact writePage_takes hplace hnodup
  rw [List.append_nil, hpageFiles] at hfiles₁
  have hall : ((collections.zipIdx.flatMap (collectionFiles (rendered.map Prod.fst)) ++
      files₁).map Prod.fst).Nodup := by
    refine (List.Perm.nodup_iff (List.Perm.map _ ?_)).mp hsite
    exact List.perm_append_comm.trans (hfiles₁.symm.append_left _)
  obtain ⟨files₂, dirs₂, htakes₂, hfiles₂, hdirs₂⟩ := takes_forM disk₀ dirs₁
    (writeCollection root (rendered.map Prod.fst)) (collectionFiles (rendered.map Prod.fst))
    (fun entry => [[entry.1.name.toList]]) hall
    fun entry _ files dirs hnodup => writeCollection_takes hnodup
  refine ⟨files₂, dirs₂, Takes.seq htakes₁ fun _ => Takes.seq htakes₂ fun _ => takes_pure _, ?_, ?_⟩
  · exact hfiles₂.trans ((hfiles₁.append_left _).trans List.perm_append_comm)
  · rw [← List.map_eq_flatMap] at hdirs₁ hdirs₂
    exact hdirs₂.trans (hdirs₁.append_left _)

/-- Every directory of the site holds a file of it, further down at least. -/
theorem site_exactly (h : prepare lib cwd root disk context = .ok rendered) {disk' : Disk}
    (hholds : Holds (output root) (site rendered)
      (collections.zipIdx.map (fun entry => [entry.1.name.toList]) ++
        (rendered.map (fun r => r.1.names.dropLast) ++ [[]])) disk') :
    Exactly (output root) (site rendered) disk' := by
  apply hholds.exactly
  · intro f hf
    rcases List.mem_append.mp hf with hf | hf
    · obtain ⟨r, hr, rfl⟩ := List.mem_map.mp hf
      obtain ⟨place, -, hplace⟩ := exists_place h hr
      refine ⟨?_, ?_⟩
      · rw [hplace, names_readPage]
        exact place.names_ne_nil
      · exact List.mem_append_right _ (List.mem_append_left _ (List.mem_map.mpr ⟨r, hr, rfl⟩))
    · obtain ⟨entry, hentry, hf⟩ := List.mem_flatMap.mp hf
      have hpath : ∃ name, f.1 = [entry.1.name.toList, name] := by
        rcases mem_collectionFiles hf with h | ⟨-, h⟩ <;> exact ⟨_, h⟩
      obtain ⟨name, hname⟩ := hpath
      rw [hname]
      exact ⟨List.cons_ne_nil _ _, List.mem_append_left _ (List.mem_map.mpr ⟨entry, hentry, rfl⟩)⟩
  · have hcategory {entry : Collection × ℕ} (hentry : entry ∈ collections.zipIdx) :
        ∃ f ∈ site rendered, f.1 = [entry.1.name.toList, categoryName] :=
      ⟨_, List.mem_append_right _ (List.mem_flatMap.mpr ⟨entry, hentry, List.mem_cons_self⟩), rfl⟩
    intro d hd
    rcases List.mem_append.mp hd with hd | hd
    · obtain ⟨entry, hentry, rfl⟩ := List.mem_map.mp hd
      obtain ⟨f, hf, hpath⟩ := hcategory hentry
      exact ⟨f, hf, by rw [hpath]; exact List.prefix_rfl⟩
    · rcases List.mem_append.mp hd with hd | hd
      · obtain ⟨r, hr, rfl⟩ := List.mem_map.mp hd
        exact ⟨_, List.mem_append_left _ (List.mem_map.mpr ⟨r, hr, rfl⟩), List.prefix_rfl⟩
      · have hfirst : (.handbook, 0) ∈ collections.zipIdx := by simp [collections]
        obtain ⟨f, hf, -⟩ := hcategory hfirst
        exact ⟨f, hf, by rw [List.mem_singleton.mp hd]; exact List.nil_prefix⟩

section Runs

variable {T : ℕ} {log : Log (FileTree.Cmd Name String) FileTree.Cmd.Res Unit} {o : Outcome ℕ} {disk' : Disk}

/-- What a run does once everything is rendered. -/
theorem assemble_writes (hprepare : prepare lib cwd root disk context = .ok rendered)
    (hrun : (assemble lib cwd root disk context).Runs exec T [] disk o log disk') :
    Outside (output root) disk disk' ∧
      ∀ n, o = .returned n → n = rendered.length ∧ Exactly (output root) (site rendered) disk' := by
  simp only [assemble, hprepare] at hrun
  obtain ⟨files, dirs, htakes, hfiles, hdirs⟩ := @write_takes _ _ _ _ _ _ disk hprepare
  have hmake : Takes (output root) disk [] [] (mkdirSync (output root)) [] [[]] := by
    have hbase := @takes_makeDirectory Name String _ (output root) [] [] disk []
    rwa [List.append_nil] at hbase
  have hleaves : Leaves (output root) disk files dirs o disk' :=
    hrun.post (wp_seq wp_remove fun _ => hmake.seq fun _ => htakes)
  refine ⟨hleaves.1, ?_⟩
  rintro n rfl
  obtain ⟨-, _, _, -, hrun⟩ := Prog.runs_bind_returned.mp hrun
  obtain ⟨-, _, _, -, hrun⟩ := Prog.runs_bind_returned.mp hrun
  obtain ⟨-, _, _, -, hrun⟩ := Prog.runs_bind_returned.mp hrun
  obtain ⟨-, _, _, -, hrun⟩ := Prog.runs_bind_returned.mp hrun
  obtain ⟨hn, -, -⟩ := Prog.runs_done.mp hrun
  exact ⟨Outcome.returned.inj hn, site_exactly hprepare ((hleaves.2 rfl).perm hfiles hdirs)⟩

/-- A run of sources that are not accepted or not rendered makes no call. -/
theorem assemble_rejects {message : String} (hprepare : prepare lib cwd root disk context = .error message)
    (hrun : (assemble lib cwd root disk context).Runs exec T [] disk o log disk') :
    o = .failed (.leaf message) ∧ disk' = disk := by
  simp only [assemble, hprepare] at hrun
  obtain ⟨ho, -, hdisk⟩ := Prog.runs_done.mp hrun
  exact ⟨ho, hdisk⟩

/-- From any disk and with any faults, the assembler changes nothing outside the generated
directory. When the sources are not accepted or cannot be rendered, it changes nothing at all.
When it returns, the directory holds exactly the site of the accepted sources: nothing that
was there before is left. -/
theorem assemble_exact (hrun : (assemble lib cwd root disk context).Runs exec T [] disk o log disk') :
    Outside (output root) disk disk' ∧
      (∀ message, prepare lib cwd root disk context = .error message →
        o = .failed (.leaf message) ∧ disk' = disk) ∧
      ∀ n, o = .returned n → ∃ rendered, prepare lib cwd root disk context = .ok rendered ∧
        n = rendered.length ∧ Exactly (output root) (site rendered) disk' := by
  cases hprepare : prepare lib cwd root disk context with
  | error message =>
      obtain ⟨rfl, rfl⟩ := assemble_rejects hprepare hrun
      exact ⟨Outside.refl _ _, fun _ h => by cases h; exact ⟨rfl, rfl⟩, fun n h => nomatch h⟩
  | ok rendered =>
      obtain ⟨houtside, hreturned⟩ := assemble_writes hprepare hrun
      refine ⟨houtside, fun message h => (by cases h), fun n hn => ?_⟩
      obtain ⟨hlength, hexactly⟩ := hreturned n hn
      exact ⟨rendered, rfl, hlength, hexactly⟩

end Runs

/-! ## Following links -/

end Site

/-! ## A handbook of one page -/

def textTree (text : String) : Node := .node (.other "text") (some text) []
def paragraphTree (nodes : List Node) : Node := .node (.other "paragraph") none nodes
def headingTree (depth : ℕ) (text : String) : Node := .node (.heading depth) none [textTree text]
def linkTree (url label : String) : Node := .node (.link url) none [textTree label]

def rowTree (cells : List Node) : Node :=
  .node .tableRow none (cells.map fun cell => .node .tableCell none [cell])

/-- The overview with the index of its handbook. -/
def overviewTree (guide : String) (footer : List Node) : Node :=
  .node .root none ([headingTree 1 "Documentation", headingTree 2 "Handbook",
    .node .table none [rowTree [textTree "Page", textTree "Purpose"],
      rowTree [linkTree guide "Guide", textTree "How to start"]]] ++ footer)

/-- The page of the handbook, which links back. -/
def guideTree (up : String) (notices footer : List Node) : Node :=
  .node .root none (headingTree 1 "Guide" :: notices ++ paragraphTree [linkTree up "Up"] :: footer)

def relatedTree : Node :=
  .node (.other "blockquote") none [paragraphTree
    [.node (.other "strong") none [textTree "Related:"], textTree " ", linkTree "../index.md" "overview"]]

def footerTree (source : String) : List Node :=
  [.node (.other "thematicBreak") none [], paragraphTree
    [textTree "Source: ", linkTree ("https://go42.dev/go42/blob/HEAD/" ++ source) source,
      textTree ". Revision: ", .node (.other "inlineCode") (some "HEAD") [], textTree "."]]

def overviewText : String :=
  "\n# Documentation\n\n## Handbook\n\n| Page | Purpose |\n| --- | --- |\n" ++
    "| [Guide](handbook/guide.md) | How to start |\n"

def guideText : String := "\r\n# Guide\r\n\r\n[Up](../README.md#handbook)\r\n"

def footerText (rule source : String) : String :=
  "\n" ++ rule ++ "\n\nSource: [" ++ source ++ "](https://go42.dev/go42/blob/HEAD/" ++ source ++
    "). Revision: `HEAD`.\n"

/-- What the two sources are rendered to. -/
def renderedTexts : List (Node × String) :=
  [(overviewTree "./handbook/guide.md" (footerTree "docs/README.md"),
      "# Documentation\n\n## Handbook\n\n| Page                         | Purpose      |\n" ++
        "| ---------------------------- | ------------ |\n| [Guide](./handbook/guide.md) | How to start |\n" ++
        footerText "***" "docs/README.md"),
    (guideTree "../index.md#handbook" [relatedTree] (footerTree "docs/handbook/guide.md"),
      "# Guide\n\n> **Related:** [overview](../index.md)\n\n[Up](../index.md#handbook)\n" ++
        footerText "***" "docs/handbook/guide.md")]

def overviewFields : Metadata :=
  ⟨.str "overview", .str "Documentation", .str "overview", .undefined, .undefined, .undefined, .undefined, .undefined⟩

theorem one_safe : -maxSafeInteger ≤ 1 ∧ 1 ≤ maxSafeInteger := by decide

def guideFields : Metadata :=
  ⟨.str "guide", .str "Guide", .str "handbook", .int ⟨1, one_safe⟩, .array [.str "overview"], .undefined, .undefined,
    .undefined⟩

def overviewYAML : String := "id: overview\ntitle: Documentation\ncollection: overview"

def guideYAML : String :=
  "id: guide\r\ntitle: Guide\r\ncollection: handbook\r\nsidebar_position: 1\r\nrelated: [overview]"

def guideDump : String :=
  "id: guide\ntitle: Guide\ncollection: handbook\nsidebar_position: 1\nrelated:\n  - overview\n"

def guideFile : File :=
  ⟨["guide.md".toList], List.cons_ne_nil _ _, List.forall_mem_singleton.mpr
    ⟨by decide, by decide, by decide, by decide⟩⟩

/-- Where the file of a collection is. -/
def sourcePath (collection : Collection) (file : File) : List Name :=
  repository ++ "docs".toList :: collection.name.toList :: file.names

/-- Libraries that know the texts of the two sources and of their pages. -/
def guideLibraries : Libraries where
  yamlLoad text :=
    if text = overviewYAML then .ok (some (overviewFields, overviewYAML ++ "\n"))
    else if text = guideYAML then .ok (some (guideFields, guideDump))
    else .ok none
  parse text :=
    if text = overviewText then overviewTree "handbook/guide.md" []
    else if text = guideText then guideTree "../README.md#handbook" [] []
    else if text = "> **Related:** [overview](../index.md)" then .node .root none [relatedTree]
    else if text = footerText "---" "docs/README.md" then .node .root none (footerTree "docs/README.md")
    else if text = footerText "---" "docs/handbook/guide.md" then
      .node .root none (footerTree "docs/handbook/guide.md")
    else .node .root none (if text = "" then [] else [paragraphTree [textTree text]])
  stringify tree :=
    match renderedTexts.find? fun known => tree.kinds = known.1.kinds ∧ nodeText tree = nodeText known.1 with
    | some (_, text) => text
    | none => nodeText tree
  glob disk collection := [guideFile].filter fun file => (disk (sourcePath collection file)).isSome
  glob_nodup _ _ := (List.nodup_singleton _).filter _
  glob_md _ _ file h := by
    rw [List.mem_singleton.mp (List.mem_filter.mp h).1]
    decide

/-- The two sources and an old page among the generated ones. -/
def guideDisk : Disk := fun p =>
  if p = repository ++ ["docs".toList, "README.md".toList] then
    some (.file ("---\n" ++ overviewYAML ++ "\n---\n" ++ overviewText))
  else if p = sourcePath .handbook guideFile then
    some (.file ("---\r\n" ++ guideYAML ++ "\r\n---\r\n" ++ guideText))
  else if p = output repository ++ ["old.md".toList] then some (.file "old")
  else if p ∈ [[], repository, repository ++ ["docs".toList], repository ++ ["docs".toList, "handbook".toList],
      repository ++ ["pages".toList], output repository] then
    some .directory
  else none

def webContext : BuildContext := ⟨⟨some "https://go42.dev/go42", "HEAD"⟩, "HEAD", false⟩

def guideRendered : List (Page × String) :=
  [(⟨"docs/README.md", "index.md", .overview, overviewFields⟩,
      "---\n" ++ overviewYAML ++ "\n---\n\n" ++ renderedTexts[0].2),
    (⟨"docs/handbook/guide.md", "handbook/guide.md", .handbook, guideFields⟩,
      "---\n" ++ guideDump ++ "---\n\n" ++ renderedTexts[1].2)]

theorem prepare_guide :
    prepare guideLibraries repository repository guideDisk webContext = .ok guideRendered := by
  decide +kernel

/-- A run in which no call faults. -/
theorem assembleGuide_returned : ∃ log disk',
    (assemble guideLibraries repository repository guideDisk webContext).Runs exec 0 [] guideDisk
      (.returned 2) log disk' := by
  simp only [assemble, prepare_guide]
  have hreturned : ((do
      rmSync (output repository)
      mkdirSync (output repository)
      guideRendered.forM (writePage repository)
      collections.zipIdx.forM (writeCollection repository (guideRendered.map Prod.fst))
      return guideRendered.length : DiskProg ℕ).follow exec 0 (List.replicate 16 .run) [] guideDisk).map
      Prod.fst = some (.returned 2) := by decide +kernel
  obtain ⟨⟨o, log, disk'⟩, hfollow, ho⟩ := Option.map_eq_some_iff.mp hreturned
  cases ho
  exact ⟨log, disk', Prog.runs_of_follow hfollow⟩

theorem assemble_exact_guide :
    ∃ disk' rendered, Outside (output repository) guideDisk disk' ∧
      prepare guideLibraries repository repository guideDisk webContext = .ok rendered ∧
      2 = rendered.length ∧ Exactly (output repository) (site rendered) disk' := by
  obtain ⟨log, disk', hrun⟩ := assembleGuide_returned
  obtain ⟨houtside, -, hsite⟩ := assemble_exact hrun
  obtain ⟨rendered, hrendered⟩ := hsite 2 rfl
  exact ⟨disk', rendered, houtside, hrendered⟩

end Go42.Pages
