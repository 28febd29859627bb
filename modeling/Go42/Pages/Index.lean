-- SUMMARY: The index tables of the overview: how they are checked, and what an accepted index lists in what order.
import Go42.Pages.Markdown
import Go42.Pages.Targets
import Mathlib.Data.List.Chain
import Mathlib.Data.List.Induction
import Mathlib.Logic.Function.Basic

/-!
# The index of the overview

The overview has a section for each collection, with tables whose rows link to its pages.
`validateIndex` goes over the top-level nodes once, and then over the collections.
-/

namespace Go42.Pages

open Posix Js

/-! ## The check -/

/-- The definitions of a document in the order of the visit. -/
def definitions (tree : Node) : List (String × String) :=
  tree.kinds.filterMap fun
    | .definition identifier url => some (identifier, url)
    | _ => none

/-- `definitions.get` after `definitions.set` for every definition: a later one replaces an earlier one. -/
def lastDefinition (tree : Node) (identifier : String) : Option String :=
  (definitions tree).reverse.lookup identifier

/-- `{name, depth}`. -/
structure Section where
  name : Collection
  depth : ℕ
deriving DecidableEq

/-- The section after a node. -/
def enter (current : Option Section) (node : Node) : Option Section :=
  match node.kind with
  | .heading depth =>
    let current := current.filter fun current => !(depth ≤ current.depth)
    let name := toLowerCase (Js.trim (nodeText node))
    match collections.find? (·.name = name) with
    | some name => some ⟨name, depth⟩
    | none => current
  | _ => current

/-- The URLs of the links in a cell, where `definition` resolves the references. -/
def linkURLs (definition : String → Option String) (cell : Node) : List (Option String) :=
  cell.kinds.filterMap fun
    | .link url => some (some url)
    | .linkReference identifier => some (definition identifier)
    | _ => none

/-- `Map` from the names of the collections to the pages indexed so far. -/
abbrev Entries := Collection → List Page

/-- The place of a page in its index; `none` for a field that fails the checks of the page. -/
def order (name : Collection) (page : Page) : Option ℤ :=
  if name = .handbook then
    match page.metadata.sidebarPosition with
    | .int position => some position.val
    | _ => none
  else
    let number := page.id.toList.drop 4
    if number.all isDigit then some (bigInt number) else none

/-- `order(previous) >= order(page)`. -/
def notBefore (name : Collection) (previous page : Page) : Bool :=
  match order name previous, order name page with
  | some m, some n => m ≥ n
  | _, _ => false

def validateOrder (overview : Page) (name : Collection) : List Page → Except String Unit
  | previous :: page :: indexed => do
    let field := if name = .handbook then "sidebar_position" else "record number"
    throwIf (notBefore name previous page)
      (overview.source ++ ": " ++ name.name ++ " index must follow ascending " ++ field ++ " order")
    validateOrder overview name (page :: indexed)
  | _ => return ()

/-- The positions so far, each with the source that has it. -/
def validatePosition (positions : List (Value × String)) (page : Page) : Except String (List (Value × String)) := do
  let position := page.metadata.sidebarPosition
  throwIf (positions.lookup position).isSome
    (page.source ++ ": duplicate handbook sidebar_position " ++ position.text ++ " (also in " ++
      (positions.lookup position).getD "" ++ ")")
  return positions ++ [(position, page.source)]

def validateCollection (overview : Page) (pages : List Page) (entries : Entries) (name : Collection) :
    Except String Unit := do
  let indexed := entries name
  let missing := pages.filter fun page => page.collection = name && !(page ∈ indexed)
  throwIf (!missing.isEmpty) (overview.source ++ ": missing " ++ name.name ++ " index entries: " ++
    ", ".intercalate (missing.map Page.source))
  if name = .templates then return () else validateOrder overview name indexed

section Index

variable (files : Files) (root : List Name) (overview : Page) (pages : List Page)

/-- The pages that the links of a cell lead to. -/
def linkedPages (definition : String → Option String) (cell : Node) : Except String (List (Option Page)) :=
  (linkURLs definition cell).mapM fun url => do
    let target ← localTarget files root overview url
    return target.bind fun target => sourcesOf pages target.source

def validateRow (definition : String → Option String) (name : Collection) (entries : Entries) (row : Node) :
    Except String Entries := do
  let incomplete := overview.source ++ ": " ++ name.name ++ " index rows need a document and a nonempty purpose"
  match row.children with
  | [document, purpose] =>
    throwIf (Js.trim (nodeText purpose) = "") incomplete
    match ← linkedPages files root overview pages definition document with
    | [some page] =>
      throwIf (page.collection != name)
        (overview.source ++ ": " ++ page.source ++ " belongs in the " ++ page.collection.name ++ " index")
      throwIf (page ∈ entries name) (overview.source ++ ": duplicate index entry for " ++ page.source)
      return Function.update entries name (entries name ++ [page])
    | _ => .error (overview.source ++ ": each " ++ name.name ++ " index row must link to one documentation source")
  | _ => .error incomplete

/-- One round over the top-level nodes. -/
def validateNode (definition : String → Option String) (state : Option Section × Entries) (node : Node) :
    Except String (Option Section × Entries) := do
  let current := enter state.1 node
  match node.kind, current with
  | .table, some within =>
    let rows := node.children.drop 1
    let entries ← rows.foldlM (validateRow files root overview pages definition within.name) state.2
    return (current, entries)
  | _, _ => return (current, state.2)

end Index

/-- The tree is that of the first page. -/
def validateIndex (files : Files) (root : List Name) (pages : List Page) (tree : Node) : Except String Unit :=
  match pages with
  | [] => .error "Cannot read properties of undefined"
  | overview :: _ => do
    let (_, entries) ← tree.children.foldlM
      (validateNode files root overview pages (lastDefinition tree)) (none, fun _ => [])
    let _ ← (pages.filter (·.collection = .handbook)).foldlM validatePosition []
    collections.forM (validateCollection overview pages entries)

/-! ## What an index is -/

/-- The first definition of a label is the one that a reference denotes. -/
def firstDefinition (tree : Node) (identifier : String) : Option String :=
  (definitions tree).lookup identifier

def Node.depth (node : Node) : Option ℕ :=
  match node.kind with
  | .heading depth => some depth
  | _ => none

/-- The collection whose name a heading has. -/
def Node.names (node : Node) : Option Collection :=
  collections.find? fun name => name.name = toLowerCase (Js.trim (nodeText node))

/-- A heading of `before` opened a section of `name`, and none of the headings after it is of the
same or a higher level or names a collection. -/
def InSection (name : Collection) (depth : ℕ) (before : List Node) : Prop :=
  ∃ outer heading inner, before = outer ++ heading :: inner ∧ heading.depth = some depth ∧
    heading.names = some name ∧ ∀ node ∈ inner, ∀ d ∈ node.depth, depth < d ∧ node.names = none

/-- The section that the nodes of `before` leave open. -/
def sectionAfter (before : List Node) : Option Section := before.foldl enter none

theorem enter_eq_some_iff {current : Option Section} {node : Node} {name : Collection} {depth : ℕ} :
    enter current node = some ⟨name, depth⟩ ↔
      (node.depth = some depth ∧ node.names = some name) ∨
      (current = some ⟨name, depth⟩ ∧ ∀ d ∈ node.depth, depth < d ∧ node.names = none) := by
  unfold enter Node.depth
  cases node.kind with
  | heading d =>
      cases hname : node.names with
      | some c =>
          rw [Node.names] at hname
          simp [hname, and_comm]
      | none =>
          rw [Node.names] at hname
          simp [hname, Option.filter_eq_some_iff]
  | _ => simp

theorem inSection_append {name : Collection} {depth : ℕ} {before : List Node} {node : Node} :
    InSection name depth (before ++ [node]) ↔
      (node.depth = some depth ∧ node.names = some name) ∨
      (InSection name depth before ∧ ∀ d ∈ node.depth, depth < d ∧ node.names = none) := by
  constructor
  case mp =>
    rintro ⟨outer, heading, inner, hsplit, hdepth, hname, hinner⟩
    cases inner using List.reverseRecOn with
    | nil =>
        obtain ⟨-, hnode⟩ := List.append_inj' hsplit rfl
        cases hnode
        exact .inl ⟨hdepth, hname⟩
    | append_singleton inner last =>
        rw [← List.cons_append, ← List.append_assoc] at hsplit
        obtain ⟨rfl, hlast⟩ := List.append_inj' hsplit rfl
        cases hlast
        refine .inr ⟨⟨outer, heading, inner, rfl, hdepth, hname, fun n hn => ?_⟩, ?_⟩
        · exact hinner n (List.mem_append_left _ hn)
        · exact hinner node (List.mem_append_right _ List.mem_cons_self)
  case mpr =>
    rintro (⟨hdepth, hname⟩ | ⟨⟨outer, heading, inner, rfl, hdepth, hname, hinner⟩, hnode⟩)
    · exact ⟨before, node, [], rfl, hdepth, hname, by simp⟩
    · refine ⟨outer, heading, inner ++ [node], by simp, hdepth, hname, fun n hn => ?_⟩
      rcases List.mem_append.mp hn with hn | hn
      · exact hinner n hn
      · cases List.mem_singleton.mp hn
        exact hnode

/-- The loop keeps the section that a reader sees. -/
theorem sectionAfter_eq_some_iff {name : Collection} {depth : ℕ} {before : List Node} :
    sectionAfter before = some ⟨name, depth⟩ ↔ InSection name depth before := by
  induction before using List.reverseRecOn with
  | nil => simp [sectionAfter, InSection]
  | append_singleton before node ih =>
      rw [sectionAfter, List.foldl_append, List.foldl_cons, List.foldl_nil, enter_eq_some_iff, inSection_append,
        ← ih, sectionAfter]

theorem exists_inSection_iff {name : Collection} {before : List Node} :
    (∃ depth, InSection name depth before) ↔ (sectionAfter before).map Section.name = some name := by
  simp only [Option.map_eq_some_iff, ← sectionAfter_eq_some_iff]
  constructor
  case mp =>
    rintro ⟨depth, hafter⟩
    exact ⟨_, hafter, rfl⟩
  case mpr =>
    rintro ⟨⟨c, depth⟩, hafter, rfl⟩
    exact ⟨depth, hafter⟩

instance (name : Collection) (before : List Node) : Decidable (∃ depth, InSection name depth before) :=
  decidable_of_iff _ exists_inSection_iff.symm

/-- The body rows of a table in a section of `name`. -/
def rowsOf (name : Collection) (before : List Node) (node : Node) : List Node :=
  if node.kind = .table ∧ ∃ depth, InSection name depth before then node.children.drop 1 else []

/-- The body rows of all tables that lie in sections of `name`, after the nodes of `before`. -/
def indexRows (name : Collection) (before : List Node) : List Node → List Node
  | [] => []
  | node :: nodes => rowsOf name before node ++ indexRows name (before ++ [node]) nodes

/-- The number of a record, of any number of digits. -/
def recordNumber (page : Page) : ℕ := bigInt (page.id.toList.drop 4)

/-- The order of the pages in the index of a collection. -/
def Before : Collection → Page → Page → Prop
  | .handbook, p, q =>
    ∃ m n, p.metadata.sidebarPosition = .int m ∧ q.metadata.sidebarPosition = .int n ∧ m < n
  | .requirements, p, q | .decisions, p, q => recordNumber p < recordNumber q
  | .overview, _, _ | .templates, _, _ => True

section Reading

variable (files : Files) (root : List Name) (overview : Page) (pages : List Page)
  (definition : String → Option String)

/-- The one page that the first cell of a row links to. -/
def rowPage (row : Node) : Option Page :=
  match row.children with
  | [] => none
  | document :: _ =>
    match linkedPages files root overview pages definition document with
    | .ok [page] => page
    | _ => none

/-- Each row links to one page, of the collection, and to another one than the rows before. -/
structure Listed (name : Collection) (rows : List Node) (indexed : List Page) : Prop where
  rows : rows.map (rowPage files root overview pages definition) = indexed.map some
  once : indexed.Nodup
  collection : ∀ page ∈ indexed, page ∈ pages ∧ page.collection = name

/-- The rows list the whole collection in order. -/
structure IsIndex (name : Collection) (rows : List Node) (indexed : List Page) : Prop extends
    Listed files root overview pages definition name rows indexed where
  complete : ∀ page ∈ pages, page.collection = name → page ∈ indexed
  ascending : indexed.Pairwise (Before name)

/-- The document is an index of the pages to a reader who resolves references by `definition`. -/
structure Indexes (tree : Node) : Prop where
  lists : ∀ name ∈ collections, ∃ indexed,
    IsIndex files root overview pages definition name (indexRows name [] tree.children) indexed
  positions : (pages.filter (·.collection = .handbook)).Pairwise
    fun p q => p.metadata.sidebarPosition ≠ q.metadata.sidebarPosition

end Reading

/-! ## The loop over the nodes -/

theorem indexRows_append (name : Collection) (before nodes : List Node) (node : Node) :
    indexRows name before (nodes ++ [node]) =
      indexRows name before nodes ++ rowsOf name (before ++ nodes) node := by
  induction nodes generalizing before with
  | nil => simp [indexRows]
  | cons first nodes ih => simp [indexRows, ih]

section Loop

variable {files : Files} {root : List Name} {overview : Page} {pages : List Page}
  {definition : String → Option String}

theorem linkedPages_mem {cell : Node} {linked : List (Option Page)} {page : Page}
    (h : linkedPages files root overview pages definition cell = .ok linked) (hpage : some page ∈ linked) :
    page ∈ pages := by
  obtain ⟨url, -, hurl⟩ := mapM_ok h _ hpage
  rw [bind_ok] at hurl
  obtain ⟨target, -, hsource⟩ := hurl
  rw [pure_ok, Option.bind_eq_some_iff] at hsource
  obtain ⟨target, -, hsource⟩ := hsource
  exact sourcesOf_mem hsource

/-- A row that passes links to one page of the collection, which is then listed. -/
theorem validateRow_ok {name : Collection} {entries entries' : Entries} {row : Node}
    (h : validateRow files root overview pages definition name entries row = .ok entries') :
    ∃ page, rowPage files root overview pages definition row = some page ∧ page ∈ pages ∧
      page.collection = name ∧ page ∉ entries name ∧
      entries' = Function.update entries name (entries name ++ [page]) := by
  unfold validateRow at h
  dsimp only at h
  split at h
  case h_1 document purpose hcells =>
    rw [bind_ok] at h
    obtain ⟨_, -, h⟩ := h
    rw [bind_ok] at h
    obtain ⟨linked, hlinked, h⟩ := h
    split at h
    case h_1 page =>
      simp only [bind_ok, throwIf_ok, pure_ok, bne_eq_false_iff_eq, decide_eq_false_iff_not] at h
      obtain ⟨_, hcollection, _, hnew, rfl⟩ := h
      refine ⟨page, ?_, linkedPages_mem hlinked List.mem_cons_self, hcollection, hnew, rfl⟩
      simp only [rowPage, hcells, hlinked]
    case h_2 => cases h
  case h_2 => cases h

/-- Every index lists the rows done so far. -/
def Recorded (files : Files) (root : List Name) (overview : Page) (pages : List Page)
    (definition : String → Option String) (rows : Collection → List Node) (entries : Entries) : Prop :=
  ∀ name, Listed files root overview pages definition name (rows name) (entries name)

/-- The rows with more of them in one index. -/
def withRows (rows : Collection → List Node) (name : Collection) (more : List Node) : Collection → List Node :=
  Function.update rows name (rows name ++ more)

theorem recorded_row {rows : Collection → List Node} {name : Collection} {entries entries' : Entries} {row : Node}
    (hentries : Recorded files root overview pages definition rows entries)
    (h : validateRow files root overview pages definition name entries row = .ok entries') :
    Recorded files root overview pages definition (withRows rows name [row]) entries' := by
  obtain ⟨page, hpage, hmem, hcollection, hnew, rfl⟩ := validateRow_ok h
  intro other
  by_cases hother : other = name
  case neg => simpa only [withRows, Function.update_of_ne hother] using hentries other
  case pos =>
    cases hother
    obtain ⟨hrows, honce, hpages⟩ := hentries name
    rw [withRows, Function.update_self, Function.update_self]
    refine ⟨?_, ?_, ?_⟩
    · rw [List.map_append, List.map_append, hrows, List.map_singleton, List.map_singleton, hpage]
    · rw [← List.concat_eq_append, List.nodup_concat]
      exact ⟨hnew, honce⟩
    · rw [List.forall_mem_append]
      exact ⟨hpages, by simpa using ⟨hmem, hcollection⟩⟩

theorem recorded_rows {rows : Collection → List Node} {name : Collection} {entries entries' : Entries}
    {more : List Node} (hentries : Recorded files root overview pages definition rows entries)
    (h : more.foldlM (validateRow files root overview pages definition name) entries = .ok entries') :
    Recorded files root overview pages definition (withRows rows name more) entries' := by
  refine @foldlM_ok _ _ _ _
    (fun done => Recorded files root overview pages definition (withRows rows name done)) _ _ _ h ?_ ?_
  · simpa [withRows] using hentries
  · intro done row entries₁ entries₂ hdone hrow
    have hnext := recorded_row hdone hrow
    simpa [withRows] using hnext

/-- One round: the section is the one that the nodes leave open, and a table's rows are listed. -/
theorem validateNode_ok {before : List Node} {node : Node} {entries : Entries} {state' : Option Section × Entries}
    (hentries : Recorded files root overview pages definition (fun name => indexRows name [] before) entries)
    (h : validateNode files root overview pages definition (sectionAfter before, entries) node = .ok state') :
    state'.1 = sectionAfter (before ++ [node]) ∧
      Recorded files root overview pages definition (fun name => indexRows name [] (before ++ [node])) state'.2 := by
  have hnext : enter (sectionAfter before) node = sectionAfter (before ++ [node]) := by simp [sectionAfter]
  have hrows (name : Collection) : indexRows name [] (before ++ [node]) = indexRows name [] before ++
      if node.kind = .table ∧ (sectionAfter before).map Section.name = some name then node.children.drop 1 else [] := by
    rw [indexRows_append, List.nil_append, rowsOf]
    simp only [exists_inSection_iff]
  simp only [hrows]
  unfold validateNode at h
  dsimp only at h
  split at h
  case h_1 within htable hwithin =>
    have hafter : sectionAfter before = some within := by
      rw [← hwithin]
      simp only [enter, htable]
    rw [bind_ok] at h
    obtain ⟨entries', hentries', h⟩ := h
    cases h
    refine ⟨hnext, ?_⟩
    intro name
    have hlisted := recorded_rows hentries hentries' name
    by_cases hname : name = within.name
    case pos =>
      cases hname
      simpa [withRows, htable, hafter] using hlisted
    case neg =>
      rw [withRows, Function.update_of_ne hname] at hlisted
      simpa [hafter, Ne.symm hname] using hlisted
  case h_2 hno =>
    cases h
    refine ⟨hnext, fun name => ?_⟩
    have hskip : ¬ (node.kind = .table ∧ (sectionAfter before).map Section.name = some name) := by
      rintro ⟨htable, hname⟩
      obtain ⟨within, hafter, -⟩ := Option.map_eq_some_iff.mp hname
      refine hno within htable ?_
      simpa only [enter, htable] using hafter
    simpa only [hskip, if_false, List.append_nil] using hentries name

theorem validateNodes_ok {nodes : List Node} {state' : Option Section × Entries}
    (h : nodes.foldlM (validateNode files root overview pages definition) (none, fun _ => []) = .ok state') :
    Recorded files root overview pages definition (fun name => indexRows name [] nodes) state'.2 := by
  have hloop := @foldlM_ok _ _ _ _ (fun before state => state.1 = sectionAfter before ∧
    Recorded files root overview pages definition (fun name => indexRows name [] before) state.2) _ _ _ h ?_ ?_
  · exact hloop.2
  · exact ⟨rfl, fun _ => ⟨rfl, List.nodup_nil, by simp⟩⟩
  · rintro before node ⟨current, entries⟩ state ⟨rfl, hentries⟩ hnode
    exact validateNode_ok hentries hnode

end Loop

/-! ## The checks of a collection -/

theorem validatePosition_ok {positions positions' : List (Value × String)} {page : Page}
    (h : validatePosition positions page = .ok positions') :
    page.metadata.sidebarPosition ∉ positions.map Prod.fst ∧
      positions' = positions ++ [(page.metadata.sidebarPosition, page.source)] := by
  simp only [validatePosition, bind_ok, throwIf_ok, pure_ok] at h
  obtain ⟨_, hnew, rfl⟩ := h
  rw [Option.isSome_eq_false_iff, Option.isNone_iff_eq_none, List.lookup_eq_none_iff] at hnew
  refine ⟨?_, rfl⟩
  intro hmem
  obtain ⟨p, hp, heq⟩ := List.mem_map.mp hmem
  have hne := hnew p hp
  simp [heq] at hne

theorem validatePositions_ok {handbook : List Page} {positions : List (Value × String)}
    (h : handbook.foldlM validatePosition [] = .ok positions) :
    handbook.Pairwise fun p q => p.metadata.sidebarPosition ≠ q.metadata.sidebarPosition := by
  let position (page : Page) : Value := page.metadata.sidebarPosition
  have hloop := @foldlM_ok _ _ _ _ (fun done positions => positions.map Prod.fst = done.map position ∧
    (done.map position).Nodup) _ _ _ h (by simp) ?_
  · exact List.pairwise_map.mp hloop.2
  · rintro done page positions positions' ⟨hkeys, hnodup⟩ hpage
    obtain ⟨hnew, rfl⟩ := validatePosition_ok hpage
    rw [hkeys] at hnew
    refine ⟨by simp [hkeys, position], ?_⟩
    rw [List.map_append, List.map_singleton, ← List.concat_eq_append, List.nodup_concat]
    exact ⟨hnew, hnodup⟩

/-- Neighbours in the index are in order. -/
theorem validateOrder_ok {overview : Page} {name : Collection} : ∀ {indexed : List Page},
    validateOrder overview name indexed = .ok () →
      indexed.IsChain fun previous page => notBefore name previous page = false
  | [], _ => .nil
  | [_], _ => .singleton _
  | previous :: page :: indexed, h => by
      simp only [validateOrder, bind_ok, throwIf_ok] at h
      obtain ⟨_, hfirst, hrest⟩ := h
      exact .cons_cons hfirst (validateOrder_ok hrest)

theorem order_handbook {page : Page} (hvalid : Valid page) (hcollection : page.collection = .handbook) :
    ∃ position : SafeInteger, page.metadata.sidebarPosition = .int position ∧
      order .handbook page = some position.val := by
  obtain ⟨position, hposition, -⟩ := hvalid.position hcollection
  exact ⟨position, hposition, by simp [order, hposition]⟩

theorem order_record {name : Collection} {page : Page} (hvalid : Valid page) (hcollection : page.collection = name)
    (hrecord : name = .requirements ∨ name = .decisions) : order name page = some (recordNumber page) := by
  obtain ⟨allowed, hstatuses, hmark, hplain⟩ : ∃ allowed, statuses name = some allowed ∧
      (recordPrefix name).length = 3 ∧ name ≠ .handbook := by
    rcases hrecord with rfl | rfl <;> exact ⟨_, rfl, rfl, by decide⟩
  cases hcollection
  have hid := (hvalid.record allowed hstatuses).1
  rw [isRecordID, hmark] at hid
  simp only [Bool.and_eq_true] at hid
  have hdigits : (page.id.toList.drop 4).all isDigit = true := hid.2.2
  simp [order, hplain, hdigits, recordNumber]

/-- The comparison of the check is the order of the index. -/
theorem before_of_notBefore {name : Collection} {p q : Page} (hp : Valid p) (hq : Valid q)
    (hpname : p.collection = name) (hqname : q.collection = name) (h : notBefore name p q = false) :
    Before name p q := by
  cases name with
  | handbook =>
      obtain ⟨m, hm, hmorder⟩ := order_handbook hp hpname
      obtain ⟨n, hn, hnorder⟩ := order_handbook hq hqname
      refine ⟨m, n, hm, hn, ?_⟩
      simpa [notBefore, hmorder, hnorder] using h
  | requirements =>
      have hm := order_record hp hpname (.inl rfl)
      have hn := order_record hq hqname (.inl rfl)
      simpa [notBefore, hm, hn, Before] using h
  | decisions =>
      have hm := order_record hp hpname (.inr rfl)
      have hn := order_record hq hqname (.inr rfl)
      simpa [notBefore, hm, hn, Before] using h
  | overview => trivial
  | templates => trivial

theorem Before.trans {name : Collection} {p q r : Page} (h₁ : Before name p q) (h₂ : Before name q r) :
    Before name p r := by
  cases name with
  | handbook =>
      obtain ⟨m, n, hm, hn, hlt⟩ := h₁
      obtain ⟨n', k, hn', hk, hlt'⟩ := h₂
      cases hn.symm.trans hn'
      exact ⟨m, k, hm, hk, hlt.trans hlt'⟩
  | requirements => exact Nat.lt_trans h₁ h₂
  | decisions => exact Nat.lt_trans h₁ h₂
  | overview => trivial
  | templates => trivial

instance (name : Collection) : IsTrans Page (Before name) := ⟨fun _ _ _ => Before.trans⟩

/-- A collection that passes is listed as a whole, in order. -/
theorem validateCollection_ok {overview : Page} {pages : List Page} {entries : Entries} {name : Collection}
    (hvalid : ∀ page ∈ entries name, Valid page ∧ page.collection = name)
    (h : validateCollection overview pages entries name = .ok ()) :
    (∀ page ∈ pages, page.collection = name → page ∈ entries name) ∧ (entries name).Pairwise (Before name) := by
  simp only [validateCollection, bind_ok, throwIf_ok] at h
  obtain ⟨_, hmissing, h⟩ := h
  constructor
  · simpa using hmissing
  · split at h
    case isTrue htemplates =>
      cases htemplates
      exact List.pairwise_of_forall fun _ _ => trivial
    case isFalse =>
      rw [← List.isChain_iff_pairwise]
      refine (validateOrder_ok h).imp_of_mem_imp fun p q hp hq hpq => ?_
      exact before_of_notBefore (hvalid p hp).1 (hvalid q hq).1 (hvalid p hp).2 (hvalid q hq).2 hpq

/-! ## An accepted index -/

/-- An accepted document is an index to a reader who takes the last definition of every label. -/
theorem validateIndex_ok {files : Files} {root : List Name} {overview : Page} {others : List Page} {ids : Ids}
    {tree : Node} (hpages : validatePages (overview :: others) = .ok ids)
    (h : validateIndex files root (overview :: others) tree = .ok ()) :
    Indexes files root overview (overview :: others) (lastDefinition tree) tree := by
  simp only [validateIndex, bind_ok] at h
  obtain ⟨⟨current, entries⟩, hnodes, positions, hpositions, hcollections⟩ := h
  have hlisted := validateNodes_ok hnodes
  have hvalid := (validatePages_ok hpages).1
  refine ⟨fun name hname => ?_, validatePositions_ok hpositions⟩
  have hentries : ∀ page ∈ entries name, Valid page ∧ page.collection = name := by
    intro page hpage
    obtain ⟨hmem, hcollection⟩ := (hlisted name).collection page hpage
    exact ⟨hvalid page hmem, hcollection⟩
  obtain ⟨hcomplete, hascending⟩ := validateCollection_ok hentries (forM_ok.mp hcollections name hname)
  exact ⟨entries name, hlisted name, hcomplete, hascending⟩

end Go42.Pages
