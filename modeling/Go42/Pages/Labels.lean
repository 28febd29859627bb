-- SUMMARY: Labels that are defined more than once: an accepted overview is an index to a Markdown reader exactly when the rows lead to the same pages as by the last definitions.
import Go42.Pages.Index
import Mathlib.Data.List.Perm.Basic
import Mathlib.Order.Basic

/-!
# Repeated labels

A reference denotes the first definition of its label. `validateIndex` reads the rows by the
last one.
-/

namespace Go42.Pages

open Posix Js

section Labels

variable (files : Files) (root : List Name) (overview : Page) (pages : List Page)

/-- By the first definition of its label every row leads to the same page as by the last one; among
templates, which have no order, the rows may lead to each other's pages. -/
def SamePages (tree : Node) (name : Collection) : Prop :=
  let rows := indexRows name [] tree.children
  let first := rowPage files root overview pages (firstDefinition tree)
  let last := rowPage files root overview pages (lastDefinition tree)
  if name = .templates then (rows.map first).Perm (rows.map last) else ∀ row ∈ rows, first row = last row

instance (tree : Node) (name : Collection) : Decidable (SamePages files root overview pages tree name) :=
  inferInstanceAs (Decidable (if name = .templates then List.Perm _ _ else ∀ row ∈ indexRows name [] tree.children,
    (_ : Option Page) = _))

end Labels

/-! ## Two readings of an index -/

theorem Before.irrefl {name : Collection} (hname : name ∈ collections) (htemplates : name ≠ .templates)
    (page : Page) : ¬ Before name page page := by
  cases name with
  | handbook =>
      rintro ⟨m, n, hm, hn, hlt⟩
      cases hm.symm.trans hn
      exact lt_irrefl m hlt
  | requirements => exact Nat.lt_irrefl _
  | decisions => exact Nat.lt_irrefl _
  | overview => exact absurd hname (by decide)
  | templates => exact absurd rfl htemplates

section Readings

variable {files : Files} {root : List Name} {overview : Page} {pages : List Page}
  {definition definition' : String → Option String} {name : Collection} {rows : List Node} {indexed indexed' : List Page}

theorem IsIndex.mem_iff (h : IsIndex files root overview pages definition name rows indexed) {page : Page} :
    page ∈ indexed ↔ page ∈ pages ∧ page.collection = name :=
  ⟨h.collection page, fun ⟨hmem, hname⟩ => h.complete page hmem hname⟩

theorem IsIndex.perm (h : IsIndex files root overview pages definition name rows indexed)
    (h' : IsIndex files root overview pages definition' name rows indexed') : indexed.Perm indexed' := by
  rw [List.perm_ext_iff_of_nodup h.once h'.once]
  exact fun page => h.mem_iff.trans h'.mem_iff.symm

/-- Where the pages have an order there is one index only. -/
theorem IsIndex.eq (hname : name ∈ collections) (htemplates : name ≠ .templates)
    (h : IsIndex files root overview pages definition name rows indexed)
    (h' : IsIndex files root overview pages definition' name rows indexed') : indexed = indexed' := by
  refine List.Perm.eq_of_pairwise (fun p q _ _ hpq hqp => ?_) h.ascending h'.ascending (h.perm h')
  exact absurd (hpq.trans hqp) (Before.irrefl hname htemplates p)

theorem exists_of_perm_map_some {α : Type} {l : List (Option α)} {l' : List α} (h : l.Perm (l'.map some)) :
    ∃ l'' : List α, l = l''.map some ∧ l''.Perm l' := by
  have hsome : List.Forall₂ (fun o a => o = some a) (l'.map some) l' :=
    List.forall₂_map_left_iff.mpr (List.forall₂_same.mpr fun _ _ => rfl)
  obtain ⟨l'', hl'', hperm⟩ := List.perm_comp_forall₂ h hsome
  refine ⟨l'', ?_, hperm⟩
  rw [← List.forall₂_eq_eq_eq]
  exact List.forall₂_map_right_iff.mpr hl''

/-- An index stays one when its rows lead to its pages in another order that is allowed. -/
theorem IsIndex.of_perm (h : IsIndex files root overview pages definition name rows indexed)
    (hperm : indexed'.Perm indexed) (hascending : indexed'.Pairwise (Before name))
    (hrows : rows.map (rowPage files root overview pages definition') = indexed'.map some) :
    IsIndex files root overview pages definition' name rows indexed' :=
  ⟨⟨hrows, hperm.nodup_iff.mpr h.once, fun page hpage => h.collection page (hperm.mem_iff.mp hpage)⟩,
    fun page hmem hname => hperm.mem_iff.mpr (h.complete page hmem hname), hascending⟩

/-- A second reading of an index is one exactly when it leads to the same pages. -/
theorem exists_isIndex_iff {tree : Node} (hname : name ∈ collections)
    (h : IsIndex files root overview pages (lastDefinition tree) name (indexRows name [] tree.children) indexed) :
    (∃ indexed, IsIndex files root overview pages (firstDefinition tree) name (indexRows name [] tree.children) indexed) ↔
      SamePages files root overview pages tree name := by
  unfold SamePages
  dsimp only
  split
  case isTrue htemplates =>
    cases htemplates
    constructor
    case mp =>
      rintro ⟨indexed', h'⟩
      rw [h.rows, h'.rows]
      exact (h'.perm h).map some
    case mpr =>
      intro hperm
      rw [h.rows] at hperm
      obtain ⟨indexed', hrows, hperm⟩ := exists_of_perm_map_some hperm
      exact ⟨indexed', h.of_perm hperm (List.pairwise_of_forall fun _ _ => trivial) hrows⟩
  case isFalse htemplates =>
    constructor
    case mp =>
      rintro ⟨indexed', h'⟩
      cases IsIndex.eq hname htemplates h h'
      exact List.map_inj_left.mp (h'.rows.trans h.rows.symm)
    case mpr =>
      intro hsame
      exact ⟨indexed, h.of_perm (.refl _) h.ascending ((List.map_congr_left hsame).trans h.rows)⟩

end Readings

/-! ## The index as it is read -/

variable {files : Files} {root : List Name} {overview : Page} {others : List Page} {ids : Ids} {tree : Node}

/-- An accepted overview is an index of the pages to a Markdown reader if and only if in every collection the
rows lead to the same pages by the first definitions of their labels as by the last. -/
theorem validateIndex_reads (hpages : validatePages (overview :: others) = .ok ids)
    (h : validateIndex files root (overview :: others) tree = .ok ()) :
    Indexes files root overview (overview :: others) (firstDefinition tree) tree ↔
      ∀ name ∈ collections, SamePages files root overview (overview :: others) tree name := by
  obtain ⟨hlists, hpositions⟩ := validateIndex_ok hpages h
  constructor
  case mp =>
    intro hfirst name hname
    obtain ⟨indexed, hindexed⟩ := hlists name hname
    exact (exists_isIndex_iff hname hindexed).mp (hfirst.lists name hname)
  case mpr =>
    intro hsame
    refine ⟨fun name hname => ?_, hpositions⟩
    obtain ⟨indexed, hindexed⟩ := hlists name hname
    exact (exists_isIndex_iff hname hindexed).mpr (hsame name hname)

/-! ### Labels that are defined once -/

theorem lookup_reverse {α β : Type} [BEq α] [LawfulBEq α] {l : List (α × β)} (hl : (l.map Prod.fst).Nodup) (k : α) :
    l.reverse.lookup k = l.lookup k := by
  induction l with
  | nil => rfl
  | cons e l ih =>
      obtain ⟨key, b⟩ := e
      obtain ⟨hnew, hl⟩ := List.nodup_cons.mp hl
      rw [List.reverse_cons, List.lookup_append, ih hl]
      by_cases hk : k = key
      case pos =>
        cases hk
        have hnone : l.lookup k = none := by
          rw [List.lookup_eq_none_iff]
          intro p hp
          have hne : p.1 ≠ k := fun hpk => hnew (List.mem_map.mpr ⟨p, hp, hpk⟩)
          simpa using hne.symm
        simp [hnone]
      case neg => simp [List.lookup_cons, beq_false_of_ne hk]

/-- An accepted overview without repeated labels is an index to every reader. -/
theorem indexes_of_labels_nodup (hpages : validatePages (overview :: others) = .ok ids)
    (h : validateIndex files root (overview :: others) tree = .ok ())
    (hlabels : ((definitions tree).map Prod.fst).Nodup) :
    Indexes files root overview (overview :: others) (firstDefinition tree) tree := by
  have hsame : lastDefinition tree = firstDefinition tree := funext fun label => lookup_reverse hlabels label
  rw [← hsame]
  exact validateIndex_ok hpages h

/-! ### A label with two definitions -/

def guide (name : String) (position : SafeInteger) : Page :=
  ⟨"docs/handbook/" ++ name ++ ".md", "handbook/" ++ name ++ ".md", .handbook,
    ⟨.str name, .str name, .str "handbook", .int position, .undefined, .undefined, .undefined, .undefined⟩⟩

def frontPage : Page :=
  ⟨"docs/README.md", "index.md", .overview,
    ⟨.str "overview", .str "Overview", .str "overview", .undefined, .undefined, .undefined, .undefined, .undefined⟩⟩

def guides : List Page := [guide "setup" ⟨1, by decide⟩, guide "usage" ⟨2, by decide⟩]

def textNode (text : String) : Node := .node (.other "text") (some text) []

def guideRow (link : Kind) : Node :=
  .node .tableRow none [.node .tableCell none [.node link none [textNode "Guide"]],
    .node .tableCell none [textNode "How it is done"]]

/-- The label `start` is defined by `url`, and then by the page `setup`. -/
def twiceDefined (url : String) : Node :=
  .node .root none [.node (.heading 2) none [textNode "Handbook"],
    .node .table none [guideRow (.other "emphasis"), guideRow (.linkReference "start"),
      guideRow (.link "handbook/usage.md")],
    .node (.definition "start" url) none [], .node (.definition "start" "handbook/setup.md") none []]

def checkGuides (url : String) : Except String Unit :=
  validateIndex (fun _ => some .file) ["go42".toList] (frontPage :: guides) (twiceDefined url)

def GuidesIndexed (url : String) : Prop :=
  Indexes (fun _ => some .file) ["go42".toList] frontPage (frontPage :: guides) (firstDefinition (twiceDefined url))
    (twiceDefined url)

theorem guides_valid : validatePages (frontPage :: guides) =
    .ok ((frontPage :: guides).map fun page => (page.id, page)) := by
  decide +kernel

/-- Both definitions lead to the same page. -/
theorem validateIndex_reads_same : GuidesIndexed "handbook/setup.md#install" :=
  (validateIndex_reads guides_valid (by decide +kernel)).mpr (by decide +kernel)

/-- The first definition leads to the page of the next row. -/
theorem validateIndex_reads_twice : (∃ ids, validatePages (frontPage :: guides) = .ok ids) ∧
    ∃ url, checkGuides url = .ok () ∧ ¬ GuidesIndexed url := by
  refine ⟨⟨_, guides_valid⟩, "handbook/usage.md", by decide +kernel, fun hindexes => ?_⟩
  obtain ⟨indexed, hindexed⟩ := hindexes.lists .handbook (by decide)
  have hrows : (indexRows .handbook [] (twiceDefined "handbook/usage.md").children).map
      (rowPage (fun _ => some .file) ["go42".toList] frontPage (frontPage :: guides)
        (firstDefinition (twiceDefined "handbook/usage.md"))) =
      [guide "usage" ⟨2, by decide⟩, guide "usage" ⟨2, by decide⟩].map some := by
    decide +kernel
  rw [hindexed.rows, List.map_inj_right fun _ _ => Option.some.inj] at hrows
  exact absurd hindexed.once (by rw [hrows]; decide +kernel)

end Go42.Pages
