-- SUMMARY: Where the pages of the documentation lie, and how a link in one of them is read.
import Go42.Lib.Percent
import Go42.Lib.PosixPath
import Go42.Pages.Metadata

/-!
# Link targets

A page has a source in the repository and a target among the generated pages. A link is
split at its query or fragment, decoded, and followed from the directory of the file it
stands in.
-/

namespace Go42.Pages

open Posix Js

/-! ## Places -/

/-- A file as it is found below a collection's directory. -/
structure File where
  names : List Name
  ne_nil : names ≠ []
  proper : ∀ name ∈ names, Proper name

def File.path (file : File) : String := String.ofList (join file.names)

inductive Place where
  | overview
  | record (collection : Collection) (file : File)

def readPage (metadata : String → Metadata) : Place → Page
  | .overview => ⟨"docs/README.md", "index.md", .overview, metadata "docs/README.md"⟩
  | .record collection file =>
    let source := "docs/" ++ collection.name ++ "/" ++ file.path
    ⟨source, collection.name ++ "/" ++ file.path, collection, metadata source⟩

/-- The pages of the overview and of the files of each collection. -/
def loadPages (listing : Collection → List File) (metadata : String → Metadata) : List Page :=
  readPage metadata .overview ::
    collections.flatMap fun collection =>
      (listing collection).map fun file => readPage metadata (.record collection file)

/-- `sources.set(page.source, page)` for every page. -/
def sourcesOf (pages : List Page) (source : String) : Option Page :=
  pages.reverse.find? fun page => page.source = source

theorem sourcesOf_mem {pages : List Page} {source : String} {page : Page} (h : sourcesOf pages source = some page) :
    page ∈ pages :=
  List.mem_reverse.mp (List.mem_of_find?_eq_some h)

/-! ## Reading links -/

inductive Entry where
  | file
  | directory
deriving DecidableEq

/-- What the file system has under an absolute path. -/
abbrev Files := List Name → Option Entry

/-- `/^(?:[A-Za-z][A-Za-z0-9+.-]*:|\/|#)/`. -/
def isPublished (url : List Char) : Bool :=
  match url with
  | [] => false
  | c :: cs =>
    c == '/' || c == '#' || (isAlpha c && (cs.dropWhile fun c =>
      isAlpha c || isDigit c || c == '+' || c == '.' || c == '-').head? == some ':')

def isSuffixStart (c : Char) : Bool := c == '?' || c == '#'

/-- `/^([^?#]*)(.*)$/`; `none` when it does not match. -/
def splitSuffix (url : List Char) : Option (List Char × List Char) :=
  let suffix := url.dropWhile fun c => !isSuffixStart c
  if suffix.any isLineTerminator then none else some (url.takeWhile fun c => !isSuffixStart c, suffix)

/-- Where a link leads from a directory, and its suffix; `none` for what others check. -/
def readLink (dir : List Name) (url : List Char) : Except String (Option (List Name × List Char)) :=
  if url = [] ∨ isPublished url = true then .ok none
  else
    match splitSuffix url with
    | none => .error "object null is not iterable (cannot read property Symbol(Symbol.iterator))"
    | some (pathname, suffix) =>
      if pathname = [] then .ok none
      else
        match Percent.decode pathname with
        | none => .error "URI malformed"
        | some path => .ok (some (resolve dir path, suffix))

structure Target where
  source : String
  suffix : String
  directory : Bool
deriving DecidableEq

def localTarget (files : Files) (root : List Name) (page : Page) (url : Option String) :
    Except String (Option Target) := do
  let url := url.getD ""
  match ← readLink (resolve root (dirname page.source.toList)) url.toList with
  | none => return none
  | some (absolute, suffix) =>
    let source := relative root absolute
    throwIf (source = dotdot || ['.', '.', '/'].isPrefixOf source || ['/'].isPrefixOf source)
      (page.source ++ ": link leaves the repository: " ++ url)
    match files absolute with
    | none => throw (page.source ++ ": missing link target " ++ url)
    | some entry => return some ⟨String.ofList source, String.ofList suffix, entry = .directory⟩

/-- The suffix of a target is that of the link. -/
theorem localTarget_suffix {files : Files} {root : List Name} {page : Page} {url : Option String}
    {target : Target} (h : localTarget files root page url = .ok (some target)) :
    ∃ absolute, readLink (resolve root (dirname page.source.toList)) (url.getD "").toList =
      .ok (some (absolute, target.suffix.toList)) := by
  unfold localTarget at h
  rw [bind_ok] at h
  obtain ⟨read, hread, h⟩ := h
  cases read with
  | none => cases h
  | some read =>
      obtain ⟨absolute, suffix⟩ := read
      dsimp only at h
      rw [bind_ok] at h
      obtain ⟨_, -, h⟩ := h
      cases hfile : files absolute with
      | none =>
          rw [hfile] at h
          cases h
      | some entry =>
          rw [hfile] at h
          cases h
          exact ⟨absolute, by rw [hread, String.toList_ofList]⟩

/-- A suffix is empty or begins with `?` or `#`, and it is on one line. -/
theorem readLink_suffix {dir : List Name} {url : List Char} {absolute : List Name} {suffix : List Char}
    (h : readLink dir url = .ok (some (absolute, suffix))) :
    (∀ c ∈ suffix.head?, isSuffixStart c = true) ∧ suffix.any isLineTerminator = false := by
  unfold readLink at h
  split at h
  case isTrue => cases h
  case isFalse =>
    split at h
    case h_1 => cases h
    case h_2 pathname suffix' hsplit =>
      split at h
      case isTrue => cases h
      case isFalse =>
        split at h
        case h_1 => cases h
        case h_2 =>
          cases h
          unfold splitSuffix at hsplit
          dsimp only at hsplit
          split at hsplit
          case isTrue => cases hsplit
          case isFalse hline =>
            cases hsplit
            refine ⟨fun c hc => ?_, Bool.eq_false_of_not_eq_true hline⟩
            have hhead := List.head?_dropWhile_not (fun c => !isSuffixStart c) url
            rw [hc] at hhead
            simpa using hhead

end Go42.Pages
