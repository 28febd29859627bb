-- SUMMARY: Documentation pages and the checks on their front matter, with what a page that passed them looks like.
import Go42.Lib.JsString
import Mathlib.Data.List.Nodup

/-!
# Front matter

The front matter of a page is a YAML mapping of any content. `validateMetadata` checks
one page after the other and collects the pages by id.
-/

namespace Go42.Pages

open Js

/-! ## Checks -/

/-- `if (cond) throw new Error(message)`. -/
def throwIf (cond : Bool) (message : String) : Except String Unit :=
  if cond then .error message else .ok ()

@[simp] theorem throwIf_ok {cond : Bool} {message : String} {u : Unit} :
    throwIf cond message = .ok u ↔ cond = false := by
  cases cond <;> simp [throwIf]

@[simp] theorem bind_ok {α β ε : Type} {x : Except ε α} {f : α → Except ε β} {b : β} :
    x >>= f = .ok b ↔ ∃ a, x = .ok a ∧ f a = .ok b := by
  cases x <;> simp [bind, Except.bind]

@[simp] theorem pure_ok {α ε : Type} {a b : α} : (pure a : Except ε α) = .ok b ↔ a = b := by
  simp [pure, Except.pure]

theorem forM_ok {α ε : Type} {l : List α} {f : α → Except ε Unit} :
    l.forM f = .ok () ↔ ∀ a ∈ l, f a = .ok () := by
  induction l with
  | nil => simp
  | cons a l ih =>
      change (f a >>= fun _ => l.forM f) = .ok () ↔ _
      rw [bind_ok, List.forall_mem_cons, ← ih, exists_and_right]
      exact and_congr_left fun _ => ⟨fun ⟨_, h⟩ => h, fun h => ⟨(), h⟩⟩

theorem mapM_ok {α β ε : Type} {f : α → Except ε β} {l : List α} {l' : List β} (h : l.mapM f = .ok l') :
    ∀ b ∈ l', ∃ a ∈ l, f a = .ok b := by
  induction l generalizing l' with
  | nil =>
      cases h
      simp
  | cons a l ih =>
      simp only [List.mapM_cons, bind_ok, pure_ok] at h
      obtain ⟨b, hb, l', hl', rfl⟩ := h
      refine List.forall_mem_cons.mpr ⟨⟨a, List.mem_cons_self, hb⟩, fun c hc => ?_⟩
      obtain ⟨a', ha', hf⟩ := ih hl' c hc
      exact ⟨a', List.mem_cons_of_mem _ ha', hf⟩

/-- What the steps of a loop keep holds at its end; `P` is about the elements done. -/
theorem foldlM_ok {α σ ε : Type} {f : σ → α → Except ε σ} {P : List α → σ → Prop} {l : List α} {s s' : σ}
    (h : l.foldlM f s = .ok s') (hstart : P [] s)
    (hstep : ∀ done a s s', P done s → f s a = .ok s' → P (done ++ [a]) s') : P l s' := by
  have hfrom (done : List α) (hdone : P done s) : P (done ++ l) s' := by
    clear hstart
    induction l generalizing done s with
    | nil =>
        cases h
        simpa using hdone
    | cons a l ih =>
        rw [List.foldlM_cons, bind_ok] at h
        obtain ⟨s₁, ha, hl⟩ := h
        have hrest := ih hl (done ++ [a]) (hstep done a s s₁ hdone ha)
        rwa [List.append_assoc, List.singleton_append] at hrest
  simpa using hfrom [] hstart

/-! ## Pages -/

inductive Collection where
  | overview
  | handbook
  | requirements
  | decisions
  | templates
deriving DecidableEq

def Collection.name : Collection → String
  | .overview => "overview"
  | .handbook => "handbook"
  | .requirements => "requirements"
  | .decisions => "decisions"
  | .templates => "templates"

def collections : List Collection := [.handbook, .requirements, .decisions, .templates]

def statuses : Collection → Option (List String)
  | .requirements => some ["draft", "accepted", "retired"]
  | .decisions => some ["proposed", "accepted", "rejected", "superseded"]
  | _ => none

/-- An element of a YAML list: a string, or another value by its text in a joined list. -/
inductive Item where
  | str (s : String)
  | other (text : String)
deriving DecidableEq

/-- `Number.MAX_SAFE_INTEGER`. -/
def maxSafeInteger : ℤ := 2 ^ 53 - 1

/-- The numbers that pass `Number.isSafeInteger`. They print as their digits. -/
abbrev SafeInteger := {n : ℤ // -maxSafeInteger ≤ n ∧ n ≤ maxSafeInteger}

/-- A field of the front matter; `double` is a number that is no safe integer, by its text. -/
inductive Value where
  | undefined
  | null
  | bool (b : Bool)
  | int (n : SafeInteger)
  | double (text : String)
  | str (s : String)
  | array (items : List Item)
  | object
deriving DecidableEq

namespace Value

/-- The value as a condition. -/
def truthy : Value → Bool
  | undefined | null => false
  | bool b => b
  | int n => n.val != 0
  | double text => text != "NaN"
  | str s => s != ""
  | array _ | object => true

/-- The value in a template literal. -/
def text : Value → String
  | undefined => "undefined"
  | null => "null"
  | bool b => toString b
  | int n => toString n.val
  | double text => text
  | str s => s
  | array items => ",".intercalate (items.map fun
    | .str s => s
    | .other text => text)
  | object => "[object Object]"

/-- A string with a property. -/
def isString (p : String → Bool) : Value → Bool
  | str s => p s
  | _ => false

/-- `Number.isSafeInteger(value) && !(value < 1)`. -/
def isPosition : Value → Bool
  | int n => !(n.val < 1)
  | _ => false

def isStringList : Value → Bool
  | array items => items.all fun
    | .str _ => true
    | .other _ => false
  | _ => false

/-- The strings of a list, and none of anything else. -/
def strings : Value → List String
  | array items => items.filterMap fun
    | .str s => some s
    | .other _ => none
  | _ => []

end Value

/-- The fields that are checked. -/
structure Metadata where
  id : Value
  title : Value
  collection : Value
  sidebarPosition : Value
  related : Value
  status : Value
  date : Value
  supersededBy : Value
deriving DecidableEq

structure Page where
  source : String
  target : String
  collection : Collection
  metadata : Metadata
deriving DecidableEq

/-- The id of a page that has one. -/
def Page.id (page : Page) : String := page.metadata.id.text

/-- `Map` from ids to pages. -/
abbrev Ids := List (String × Page)

/-- `ids.get(id)`; the keys are strings. -/
def Ids.get (ids : Ids) : Value → Option Page
  | .str id => ids.lookup id
  | _ => none

/-! ## The checks of a page -/

/-- `[A-Za-z][A-Za-z0-9-]*`. -/
def isDocumentID (id : String) : Bool :=
  match id.toList with
  | [] => false
  | c :: cs => isAlpha c && cs.all fun c => isAlpha c || isDigit c || c == '-'

def recordPrefix (collection : Collection) : String := if collection = .requirements then "REQ" else "ADR"

/-- The prefix, `-`, and three digits or more. -/
def isRecordID (mark id : String) : Bool :=
  (mark.toList ++ ['-']).isPrefixOf id.toList &&
    (let number := id.toList.drop (mark.length + 1)
     3 ≤ number.length && number.all isDigit)

/-- What a field `superseded_by` must be under a status. -/
def supersededByFits (status supersededBy : Value) : Bool :=
  if status = .str "superseded" then supersededBy.isString (· != "") else supersededBy = .undefined

def validateMetadata (page : Page) (ids : Ids) : Except String Ids := do
  let source := page.source
  let collection := page.collection
  let metadata := page.metadata
  throwIf (!metadata.id.isString isDocumentID)
    (source ++ ": id must contain letters, digits, and hyphens and start with a letter")
  throwIf (!metadata.title.isString fun title => Js.trim title != "") (source ++ ": title is required")
  throwIf (!metadata.collection.isString (· == collection.name))
    (source ++ ": collection must be " ++ collection.name)
  throwIf (collection = .handbook && !metadata.sidebarPosition.isPosition)
    (source ++ ": handbook sidebar_position must be a positive integer")
  throwIf (ids.get metadata.id).isSome
    (source ++ ": duplicate id " ++ metadata.id.text ++ " (also in " ++
      ((ids.get metadata.id).map Page.source).getD "" ++ ")")
  let ids := ids ++ [(metadata.id.text, page)]
  throwIf (metadata.related != .undefined && !metadata.related.isStringList)
    (source ++ ": related must be a list of document IDs")
  match statuses collection with
  | none => return ids
  | some allowed =>
    throwIf (!metadata.id.isString (isRecordID (recordPrefix collection)))
      (source ++ ": " ++ collection.name ++ " must use " ++ recordPrefix collection ++ "-NNN IDs")
    throwIf (!metadata.status.isString allowed.contains)
      (source ++ ": status must be one of " ++ ", ".intercalate allowed)
    throwIf (collection = .decisions && !metadata.date.isString isRealDate)
      (source ++ ": date must be a real date in YYYY-MM-DD form")
    throwIf (collection = .decisions && !supersededByFits metadata.status metadata.supersededBy)
      (source ++ ": only a superseded decision must set superseded_by to a replacement ID")
    return ids

/-- The pages in order, each against the ids before it. -/
def validatePages (pages : List Page) : Except String Ids :=
  pages.foldlM (fun ids page => validateMetadata page ids) []

/-! ## Pages that passed -/

/-- What the checks of one page leave. -/
structure Valid (page : Page) : Prop where
  id : page.metadata.id = .str page.id
  position : page.collection = .handbook →
    ∃ n : SafeInteger, page.metadata.sidebarPosition = .int n ∧ 1 ≤ n.val
  related : page.metadata.related = .undefined ∨ ∃ ids : List String, page.metadata.related = .array (ids.map .str)
  record : ∀ allowed, statuses page.collection = some allowed →
    isRecordID (recordPrefix page.collection) page.id = true ∧ ∃ status ∈ allowed, page.metadata.status = .str status
  supersededBy : page.collection = .decisions →
    supersededByFits page.metadata.status page.metadata.supersededBy = true

theorem Value.isString_iff {p : String → Bool} {v : Value} :
    v.isString p = true ↔ ∃ s, v = .str s ∧ p s = true := by
  cases v with
  | str s => simp [Value.isString]
  | _ => simp [Value.isString]

theorem Value.isPosition_iff {v : Value} (h : v.isPosition = true) :
    ∃ n : SafeInteger, v = .int n ∧ 1 ≤ n.val := by
  cases v with
  | int n =>
      simp only [Value.isPosition, Bool.not_eq_true', decide_eq_false_iff_not, not_lt] at h
      exact ⟨n, rfl, h⟩
  | _ => cases h

theorem Value.isStringList_iff {v : Value} (h : v.isStringList = true) :
    ∃ ids : List String, v = .array (ids.map .str) := by
  cases v with
  | array items =>
      refine ⟨(Value.array items).strings, ?_⟩
      induction items with
      | nil => rfl
      | cons item items ih =>
          cases item with
          | other text => cases h
          | str s =>
              have ih := ih h
              simp only [Value.strings, Value.array.injEq] at ih ⊢
              rw [List.filterMap_cons, List.map_cons, ← ih]
  | _ => cases h

/-- A page that passes is valid, and its id is new. -/
theorem validateMetadata_ok {page : Page} {ids ids' : Ids} (h : validateMetadata page ids = .ok ids') :
    Valid page ∧ ids.lookup page.id = none ∧ ids' = ids ++ [(page.id, page)] := by
  simp only [validateMetadata, bind_ok, throwIf_ok, Bool.not_eq_false'] at h
  obtain ⟨_, hid, _, -, _, -, _, hposition, _, hfresh, _, hrelated, h⟩ := h
  obtain ⟨id, hid, -⟩ := Value.isString_iff.mp hid
  have hpage : page.metadata.id = .str page.id := by rw [Page.id, hid, Value.text]
  have hnew : ids.lookup page.id = none := by
    rw [hpage] at hfresh
    simpa [Ids.get] using hfresh
  have hhandbook (hc : page.collection = .handbook) :
      ∃ n : SafeInteger, page.metadata.sidebarPosition = .int n ∧ 1 ≤ n.val := by
    simp only [hc, decide_true, Bool.true_and, Bool.not_eq_false'] at hposition
    exact Value.isPosition_iff hposition
  have hlist : page.metadata.related = .undefined ∨
      ∃ ids : List String, page.metadata.related = .array (ids.map .str) := by
    rw [Bool.and_eq_false_iff, bne_eq_false_iff_eq, Bool.not_eq_false'] at hrelated
    exact hrelated.imp_right Value.isStringList_iff
  cases hstatuses : statuses page.collection with
  | none =>
      rw [hstatuses, pure_ok] at h
      have hplain : page.collection ≠ .decisions := by
        intro hc
        rw [hc] at hstatuses
        cases hstatuses
      refine ⟨⟨hpage, hhandbook, hlist, fun _ ha => ?_, fun hc => absurd hc hplain⟩, hnew, h.symm⟩
      rw [hstatuses] at ha
      cases ha
  | some allowed =>
      rw [hstatuses] at h
      simp only [bind_ok, throwIf_ok, Bool.not_eq_false', pure_ok] at h
      obtain ⟨_, hrecord, _, hstatus, _, -, _, hsuperseded, h⟩ := h
      rw [hpage] at hrecord
      obtain ⟨status, hstatus, hmem⟩ := Value.isString_iff.mp hstatus
      refine ⟨⟨hpage, hhandbook, hlist, fun _ ha => ?_, fun hc => ?_⟩, hnew, h.symm⟩
      · rw [hstatuses] at ha
        cases ha
        exact ⟨hrecord, status, List.contains_iff_mem.mp hmem, hstatus⟩
      · simpa [hc] using hsuperseded

/-- The pages that passed, each under its own id. -/
theorem validatePages_ok {pages : List Page} {ids : Ids} (h : validatePages pages = .ok ids) :
    (∀ page ∈ pages, Valid page) ∧ ids = pages.map (fun page => (page.id, page)) ∧
      (pages.map Page.id).Nodup := by
  refine @foldlM_ok _ _ _ _ (fun pages ids => (∀ page ∈ pages, Valid page) ∧
    ids = pages.map (fun page => (page.id, page)) ∧ (pages.map Page.id).Nodup) _ _ _ h (by simp) ?_
  rintro done page ids ids' ⟨hvalid, rfl, hnodup⟩ hpage
  obtain ⟨hpageValid, hnew, rfl⟩ := validateMetadata_ok hpage
  have hnotmem : page.id ∉ done.map Page.id := by
    intro hmem
    obtain ⟨other, hother, hid⟩ := List.mem_map.mp hmem
    have hne := List.lookup_eq_none_iff.mp hnew _ (List.mem_map_of_mem hother)
    rw [hid] at hne
    simp at hne
  refine ⟨?_, by simp, ?_⟩
  · rw [List.forall_mem_append]
    exact ⟨hvalid, by simpa using hpageValid⟩
  · rw [List.map_append, List.map_singleton, ← List.concat_eq_append, List.nodup_concat]
    exact ⟨hnotmem, hnodup⟩

section Passed

variable {pages : List Page} {ids : Ids} (h : validatePages pages = .ok ids)
include h

theorem page_eq_of_id {p q : Page} (hp : p ∈ pages) (hq : q ∈ pages) (hid : p.id = q.id) : p = q :=
  List.inj_on_of_nodup_map (validatePages_ok h).2.2 hp hq hid

/-- The id of a page leads to it, and nothing else does. -/
theorem get_eq_some_iff {v : Value} {page : Page} :
    ids.get v = some page ↔ page ∈ pages ∧ v = .str page.id := by
  obtain ⟨-, rfl, hnodup⟩ := validatePages_ok h
  cases v with
  | str id =>
      rw [Ids.get, List.lookup_eq_some_iff]
      constructor
      case mp =>
        rintro ⟨l₁, l₂, hsplit, -⟩
        have hmem : (id, page) ∈ pages.map fun page => (page.id, page) := by
          rw [hsplit]
          exact List.mem_append_right _ List.mem_cons_self
        obtain ⟨q, hq, heq⟩ := List.mem_map.mp hmem
        cases heq
        exact ⟨hq, rfl⟩
      case mpr =>
        rintro ⟨hpage, hid⟩
        cases hid
        obtain ⟨l₁, l₂, rfl⟩ := List.append_of_mem hpage
        refine ⟨_, _, List.map_append, fun e he => ?_⟩
        obtain ⟨q, hq, rfl⟩ := List.mem_map.mp he
        rw [List.map_append, List.map_cons] at hnodup
        have hne := (List.nodup_append.mp hnodup).2.2 q.id (List.mem_map_of_mem hq) page.id List.mem_cons_self
        simpa using Ne.symm hne
  | _ => simp [Ids.get]

end Passed

end Go42.Pages
