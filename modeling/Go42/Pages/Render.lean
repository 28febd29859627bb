-- SUMMARY: Links in generated pages: a rewritten link denotes the generated page it was written for exactly when the names it spells need no escape.
import Go42.Pages.Markdown
import Go42.Pages.Targets

/-!
# Rendering links

A link to a documentation source is written again, relative to the generated page, from
the raw names of the target. A reader splits and decodes it as `localTarget` does with the
links of a source.
-/

namespace Go42.Pages

open Posix Js

/-! ## The renderer -/

structure Bundle where
  root : List Name
  pages : List Page

/-- `{repository, revision}`. -/
structure Context where
  repository : Option String
  revision : String

/-- The working directory is where relative paths are resolved. -/
def relative (cwd : List Name) (start target : String) : String :=
  let result := Posix.relative (resolve cwd (dirname start.toList)) (resolve cwd target.toList)
  if result.head? = some '.' then String.ofList result else "./" ++ String.ofList result

def sourceURL (context : Context) (source : String) (directory : Bool) : Except String String :=
  match context.repository with
  | none => .error "Set DOCS_REPOSITORY_URL to the repository web URL when no GitHub origin can be detected"
  | some repository =>
    let filename := String.ofList (join ((split source.toList).map Percent.encode))
    let revision := String.ofList (Percent.encode context.revision.toList)
    .ok (repository ++ "/" ++ (if directory then "tree" else "blob") ++ "/" ++ revision ++ "/" ++ filename)

/-- The page that a target leads to: a source, or the `README.md` of a directory. -/
def Bundle.destination (bundle : Bundle) (target : Target) : Option Page :=
  (sourcesOf bundle.pages target.source).or
    (if target.directory then sourcesOf bundle.pages (target.source ++ "/README.md") else none)

section Render

variable (files : Files) (cwd : List Name) (bundle : Bundle) (context : Context)

/-- What becomes of a URL in `page`. -/
def renderURL (page : Page) (asImage : Bool) (url : String) : Except String String := do
  match ← localTarget files bundle.root page (some url) with
  | none => return url
  | some target =>
    match bundle.destination target with
    | some destination => return relative cwd page.target destination.target ++ target.suffix
    | none =>
      if asImage then
        throwIf target.directory (page.source ++ ": image must reference a file: " ++ url)
        return relative cwd ("pages/docs/" ++ page.target) target.source ++ target.suffix
      else
        let source ← sourceURL context target.source target.directory
        return source ++ target.suffix

/-- The identifiers that images refer to. -/
def imageDefinitions (tree : Node) : List String :=
  tree.kinds.filterMap fun
    | .imageReference identifier => some identifier
    | _ => none

def renderKind (page : Page) (images : List String) : Kind → Except String Kind
  | .link url => return .link (← renderURL files cwd bundle context page false url)
  | .image url => return .image (← renderURL files cwd bundle context page true url)
  | .definition identifier url =>
    return .definition identifier (← renderURL files cwd bundle context page (images.contains identifier) url)
  | kind => return kind

/-- The links of a rendered page. -/
def renderPage (page : Page) (tree : Node) : Except String Node :=
  tree.mapKinds (renderKind files cwd bundle context page (imageDefinitions tree))

end Render

/-! ## Reading a rendered link -/

def Kind.url : Kind → Option String
  | .link url | .image url | .definition _ url => some url
  | _ => none

/-- `pages/docs`. -/
def output (root : List Name) : List Name := root ++ ["pages".toList, "docs".toList]

/-- Where a page is written. -/
def generated (root : List Name) (page : Page) : List Name := resolve (output root) page.target.toList

/-- A URL in a generated page leads to the generated `destination`, with the suffix. -/
def Denotes (root : List Name) (page destination : Page) (suffix url : String) : Prop :=
  readLink (resolve (output root) (dirname page.target.toList)) url.toList =
    .ok (some (generated root destination, suffix.toList))

/-- The names of the destination's target beyond the directories it shares with the page's. -/
def spelled (page destination : Page) : List Name :=
  beyond (split page.target.toList).dropLast (split destination.target.toList)

/-- A name without the characters that a URL reserves. -/
def Plain (name : Name) : Prop := '%' ∉ name ∧ '?' ∉ name ∧ '#' ∉ name

instance (root : List Name) (page destination : Page) (suffix url : String) :
    Decidable (Denotes root page destination suffix url) := inferInstanceAs (Decidable (_ = _))

instance (name : Name) : Decidable (Plain name) := inferInstanceAs (Decidable (_ ∧ _ ∧ _))

/-! ## Places of pages -/

/-- The target of a page that was loaded names a file. -/
theorem target_names {listing : Collection → List File} {metadata : String → Metadata} {page : Page}
    (h : page ∈ loadPages listing metadata) :
    ∃ names, names ≠ [] ∧ (∀ name ∈ names, Proper name) ∧ page.target = String.ofList (join names) := by
  rcases List.mem_cons.mp h with rfl | h
  · refine ⟨["index.md".toList], List.cons_ne_nil _ _, List.forall_mem_singleton.mpr ?_, rfl⟩
    exact ⟨by decide, by decide, by decide, by decide⟩
  · obtain ⟨collection, -, h⟩ := List.mem_flatMap.mp h
    obtain ⟨file, -, rfl⟩ := List.mem_map.mp h
    refine ⟨collection.name.toList :: file.names, List.cons_ne_nil _ _, ?_, ?_⟩
    · refine List.forall_mem_cons.mpr ⟨?_, file.proper⟩
      cases collection <;> exact ⟨by decide, by decide, by decide, by decide⟩
    · rw [join_cons_of_ne_nil _ file.ne_nil]
      apply String.toList_inj.mp
      simp [readPage, File.path]

theorem destination_mem {bundle : Bundle} {target : Target} {page : Page}
    (h : bundle.destination target = some page) : page ∈ bundle.pages := by
  rcases Option.or_eq_some_iff.mp h with h | ⟨-, h⟩
  · exact sourcesOf_mem h
  · split at h
    case isTrue => exact sourcesOf_mem h
    case isFalse => cases h

/-! ## The text of a rewritten link -/

/-- What stands before the names that a link spells. -/
structure Leads (start common : List Name) (names : List Name) : Prop where
  dots : ∀ name ∈ names, name = [] ∨ name = dot ∨ name = dotdot
  leads : ∀ dir, names.foldl push (dir ++ start) = dir ++ common

theorem Leads.no_mark {start common names : List Name} (h : Leads start common names) {c : Char} (hc : c ≠ '.') :
    ∀ name ∈ names, c ∉ name := by
  intro name hname hmem
  rcases h.dots name hname with rfl | rfl | rfl
  · exact nomatch hmem
  · exact hc (by simpa [dot] using hmem)
  · exact hc (by simpa [dotdot] using hmem)

theorem relative_eq {cwd a b : List Name} {start target : String} (ha : a ≠ []) (hpa : ∀ name ∈ a, Proper name)
    (hb : b ≠ []) (hpb : ∀ name ∈ b, Proper name) (hstart : start = String.ofList (join a))
    (htarget : target = String.ofList (join b)) :
    ∃ names common, b = common ++ beyond a.dropLast b ∧ Leads a.dropLast common names ∧
      names ++ beyond a.dropLast b ≠ [] ∧ (join (names ++ beyond a.dropLast b)).head? = some '.' ∧
      (relative cwd start target).toList = join (names ++ beyond a.dropLast b) := by
  obtain ⟨common, hup, hdown⟩ := shared a.dropLast b
  have hleads (dir : List Name) :
      (List.replicate (above a.dropLast b).length dotdot).foldl push (dir ++ a.dropLast) = dir ++ common := by
    have hdrop := foldl_push_dotdot (dir ++ common) (above a.dropLast b)
    rwa [List.append_assoc, ← hup] at hdrop
  have hrelative : (relative cwd start target).toList =
      if (Posix.relative a.dropLast b).head? = some '.' then Posix.relative a.dropLast b
      else '.' :: '/' :: Posix.relative a.dropLast b := by
    have hresult : Posix.relative (resolve cwd (dirname start.toList)) (resolve cwd target.toList) =
        Posix.relative a.dropLast b := by
      rw [hstart, htarget, String.toList_ofList, String.toList_ofList, resolve_dirname hpa ha, resolve_join hpb hb,
        Posix.relative, above_append, beyond_append, Posix.relative]
    unfold relative
    simp only [hresult]
    split <;> simp
  rw [hrelative]
  split
  case isTrue hhead =>
    refine ⟨_, common, hdown, ⟨fun name hname => .inr (.inr (List.eq_of_mem_replicate hname)), hleads⟩, ?_,
      hhead, rfl⟩
    intro hnil
    rw [Posix.relative, hnil] at hhead
    cases hhead
  case isFalse hhead =>
    -- Without a step up, the page's own directory is where the names start.
    have hlevel : above a.dropLast b = [] := by
      cases habove : above a.dropLast b with
      | nil => rfl
      | cons name rest =>
          rw [Posix.relative, habove, List.length_cons, List.replicate_succ, List.cons_append] at hhead
          exfalso
          apply hhead
          cases hrest : List.replicate rest.length dotdot ++ beyond a.dropLast b with
          | nil => rfl
          | cons name' rest' =>
              rw [join_cons_of_ne_nil _ (List.cons_ne_nil _ _)]
              rfl
    have hstay : a.dropLast = common := by rw [hup, hlevel, List.append_nil]
    have htext : Posix.relative a.dropLast b = join (beyond a.dropLast b) := by
      rw [Posix.relative, hlevel]
      rfl
    rw [htext]
    by_cases hbeyond : beyond a.dropLast b = []
    · refine ⟨[dot, []], common, hdown, ⟨?_, fun dir => by rw [hstay]; rfl⟩, by simp, ?_, ?_⟩
      · intro name hname
        rcases List.mem_pair.mp hname with rfl | rfl
        · exact .inr (.inl rfl)
        · exact .inl rfl
      · rw [hbeyond]
        rfl
      · rw [hbeyond]
        rfl
    · refine ⟨[dot], common, hdown, ⟨?_, fun dir => by rw [hstay]; rfl⟩, by simp, ?_, ?_⟩
      · exact fun name hname => .inr (.inl (List.mem_singleton.mp hname))
      · rw [List.singleton_append, join_cons_of_ne_nil _ hbeyond]
        rfl
      · rw [List.singleton_append, join_cons_of_ne_nil _ hbeyond]
        rfl

/-! ## Reading it -/

/-- A link that begins with a dot is followed from the directory. -/
theorem readLink_dot {dir : List Name} {url : List Char} (hhead : url.head? = some '.') :
    readLink dir url =
      if (url.dropWhile fun c => !isSuffixStart c).any isLineTerminator = true then
        .error "object null is not iterable (cannot read property Symbol(Symbol.iterator))"
      else
        match Percent.decode (url.takeWhile fun c => !isSuffixStart c) with
        | none => .error "URI malformed"
        | some path => .ok (some (follow dir path, url.dropWhile fun c => !isSuffixStart c)) := by
  obtain ⟨rest, rfl⟩ := List.head?_eq_some_iff.mp hhead
  have hdot : isSuffixStart '.' = false := by decide
  have hlocal : ¬ ('.' :: rest = [] ∨ isPublished ('.' :: rest) = true) := by
    rintro (hnil | hpublished)
    · cases hnil
    · simp [isPublished, isAlpha] at hpublished
  rw [readLink, if_neg hlocal]
  split
  case h_1 hsplit =>
    unfold splitSuffix at hsplit
    dsimp only at hsplit
    split at hsplit
    case isTrue hline => rw [if_pos hline]
    case isFalse => cases hsplit
  case h_2 pathname suffix hsplit =>
    unfold splitSuffix at hsplit
    dsimp only at hsplit
    split at hsplit
    case isTrue => cases hsplit
    case isFalse hline =>
      cases hsplit
      rw [if_neg hline]
      simp only [List.takeWhile_cons, hdot, Bool.not_false, if_true, reduceCtorEq, if_false]
      rw [Percent.decode_plain (by decide)]
      cases Percent.decode (rest.takeWhile fun c => !isSuffixStart c) with
      | none => rfl
      | some path => simp [resolve]

/-- Names without reserved characters are followed as they are. -/
theorem readLink_plain {dir : List Name} {path suffix : List Char} (hhead : path.head? = some '.')
    (hline : suffix.any isLineTerminator = false) (hsuffix : ∀ c ∈ suffix.head?, isSuffixStart c = true)
    (hpath : ∀ c ∈ path, isSuffixStart c = false) (hpercent : '%' ∉ path) :
    readLink dir (path ++ suffix) = .ok (some (follow dir path, suffix)) := by
  have hrest : suffix.takeWhile (fun c => !isSuffixStart c) = [] ∧
      suffix.dropWhile (fun c => !isSuffixStart c) = suffix := by
    cases suffix with
    | nil => exact ⟨rfl, rfl⟩
    | cons c suffix => simp [hsuffix c rfl]
  have htake : (path ++ suffix).takeWhile (fun c => !isSuffixStart c) = path := by
    rw [List.takeWhile_append_of_pos (by simpa using hpath), hrest.1, List.append_nil]
  have hdrop : (path ++ suffix).dropWhile (fun c => !isSuffixStart c) = suffix := by
    rw [List.dropWhile_append_of_pos (by simpa using hpath), hrest.2]
  have hurl : (path ++ suffix).head? = some '.' := by
    rw [List.head?_append, hhead]
    rfl
  rw [readLink_dot hurl, htake, hdrop, hline, Percent.decode_of_plain hpercent]
  rfl

theorem takeWhile_shorter {path suffix : List Char} (h : ∃ c ∈ path, isSuffixStart c = true) :
    ((path ++ suffix).takeWhile fun c => !isSuffixStart c).length < path.length := by
  induction path with
  | nil => exact absurd h (by simp)
  | cons c path ih =>
      cases hc : isSuffixStart c with
      | true => simp [hc]
      | false =>
          obtain ⟨d, hd, hmark⟩ := h
          have hpath : d ∈ path := by
            rcases List.mem_cons.mp hd with rfl | hd
            · rw [hc] at hmark
              cases hmark
            · exact hd
          simpa [hc] using ih ⟨d, hpath, hmark⟩

/-- A text with a reserved character is read as a shorter one. -/
theorem decode_shorter {path suffix p : List Char} (hsuffix : ∀ c ∈ suffix.head?, isSuffixStart c = true)
    (hp : Percent.decode ((path ++ suffix).takeWhile fun c => !isSuffixStart c) = some p)
    (h : (∃ c ∈ path, isSuffixStart c = true) ∨ '%' ∈ path) : p.length < path.length := by
  obtain ⟨hle, hlt⟩ := Percent.decode_length hp
  by_cases hmark : ∃ c ∈ path, isSuffixStart c = true
  · exact Nat.lt_of_le_of_lt hle (takeWhile_shorter hmark)
  · have hpath : ∀ c ∈ path, (!isSuffixStart c) = true := by
      intro c hc
      rw [Bool.not_eq_true', Bool.eq_false_iff]
      exact fun hstart => hmark ⟨c, hc, hstart⟩
    have hrest : suffix.takeWhile (fun c => !isSuffixStart c) = [] := by
      cases suffix with
      | nil => rfl
      | cons c suffix => simp [hsuffix c rfl]
    rw [List.takeWhile_append_of_pos hpath, hrest, List.append_nil] at hlt
    exact hlt (h.resolve_left hmark)

/-! ## When it denotes its target -/

theorem denotes_iff {root cwd : List Name} {page destination : Page} {a b : List Name} (ha : a ≠ [])
    (hpa : ∀ name ∈ a, Proper name) (hb : b ≠ []) (hpb : ∀ name ∈ b, Proper name)
    (hpage : page.target = String.ofList (join a)) (hdestination : destination.target = String.ofList (join b))
    {suffix : String} (hline : suffix.toList.any isLineTerminator = false)
    (hsuffix : ∀ c ∈ suffix.toList.head?, isSuffixStart c = true) :
    Denotes root page destination suffix (relative cwd page.target destination.target ++ suffix) ↔
      ∀ name ∈ spelled page destination, Plain name := by
  obtain ⟨names, common, hdown, hleads, hne, hhead, htext⟩ := relative_eq ha hpa hb hpb hpage hdestination
  have hspelled : spelled page destination = beyond a.dropLast b := by
    rw [spelled, hpage, hdestination, String.toList_ofList, String.toList_ofList, split_join hpa ha, split_join hpb hb]
  have hgenerated : generated root destination = output root ++ b := by
    rw [generated, hdestination, String.toList_ofList, resolve_join hpb hb]
  have hdir : resolve (output root) (dirname page.target.toList) = output root ++ a.dropLast := by
    rw [hpage, String.toList_ofList, resolve_dirname hpa ha]
  have hslash : ∀ name ∈ names ++ beyond a.dropLast b, '/' ∉ name := by
    intro name hname
    rcases List.mem_append.mp hname with hname | hname
    · exact hleads.no_mark (by decide) name hname
    · exact (hpb name (hdown ▸ List.mem_append_right _ hname)).no_slash
  rw [Denotes, hspelled, hgenerated, hdir, String.toList_append, htext]
  constructor
  case mpr =>
    intro hplain
    have hchars : ∀ c ∈ join (names ++ beyond a.dropLast b), isSuffixStart c = false ∧ c ≠ '%' := by
      intro c hc
      rcases of_mem_join hc with rfl | ⟨name, hname, hc⟩
      · decide
      · rcases List.mem_append.mp hname with hname | hname
        · have hdot : c = '.' := by
            by_contra hne
            exact hleads.no_mark hne name hname hc
          rw [hdot]
          decide
        · obtain ⟨hpercent, hquestion, hhash⟩ := hplain name hname
          refine ⟨?_, fun h => hpercent (h ▸ hc)⟩
          rw [isSuffixStart, Bool.or_eq_false_iff, beq_eq_false_iff_ne, beq_eq_false_iff_ne]
          exact ⟨fun h => hquestion (h ▸ hc), fun h => hhash (h ▸ hc)⟩
    rw [readLink_plain hhead hline hsuffix (fun c hc => (hchars c hc).1) fun hc => (hchars _ hc).2 rfl,
      follow_join hslash hne, List.foldl_append, hleads.leads]
    have hproper : ∀ name ∈ beyond a.dropLast b, Proper name := fun name hname =>
      hpb name (hdown ▸ List.mem_append_right _ hname)
    rw [foldl_push_proper hproper, List.append_assoc, ← hdown]
  case mp =>
    intro hread
    by_contra hreserved
    push Not at hreserved
    obtain ⟨name, hname, hreserved⟩ := hreserved
    have hbeyond : beyond a.dropLast b ≠ [] := List.ne_nil_of_mem hname
    have hurl : (join (names ++ beyond a.dropLast b) ++ suffix.toList).head? = some '.' := by
      rw [List.head?_append, hhead]
      rfl
    rw [readLink_dot hurl] at hread
    split at hread
    case isTrue => cases hread
    case isFalse =>
      split at hread
      case h_1 => cases hread
      case h_2 p hp =>
        have habsolute : follow (output root ++ a.dropLast) p = output root ++ b :=
          congrArg Prod.fst (Option.some.inj (Except.ok.inj hread))
        -- The dots are read as they are, and what is spelled after them becomes shorter.
        have hlead : ∀ c ∈ lead names, isSuffixStart c = false ∧ c ≠ '%' := by
          intro c hc
          obtain ⟨name, hname, hc⟩ := List.mem_flatMap.mp hc
          rcases List.mem_append.mp hc with hc | hc
          · have hdot : c = '.' := by
              by_contra hne
              exact hleads.no_mark hne name hname hc
            rw [hdot]
            decide
          · rw [List.mem_singleton.mp hc]
            decide
        have hmarks : ∀ c ∈ lead names, (!isSuffixStart c) = true := fun c hc => by rw [(hlead c hc).1]; rfl
        rw [join_append hbeyond, List.append_assoc, List.takeWhile_append_of_pos hmarks,
          Percent.decode_append fun hc => (hlead _ hc).2 rfl] at hp
        obtain ⟨q, hq, rfl⟩ := Option.map_eq_some_iff.mp hp
        have hshorter : q.length < (join (beyond a.dropLast b)).length := by
          refine decode_shorter hsuffix hq ?_
          by_cases hpercent : '%' ∈ name
          · exact .inr (mem_join hname hpercent)
          · have hmark : '?' ∈ name ∨ '#' ∈ name := by
              by_contra hnone
              rw [not_or] at hnone
              exact hreserved ⟨hpercent, hnone.1, hnone.2⟩
            rcases hmark with hmark | hmark
            · exact .inl ⟨_, mem_join hname hmark, rfl⟩
            · exact .inl ⟨_, mem_join hname hmark, rfl⟩
        rw [follow_lead (fun name hname => hleads.no_mark (by decide) name hname), hleads.leads] at habsolute
        have hsize := size_follow_le (output root ++ common) q
        have htotal : size (output root ++ b) =
            size (output root ++ common) + ((join (beyond a.dropLast b)).length + 1) := by
          rw [← size_join hbeyond, ← size_append, List.append_assoc, ← hdown]
        rw [habsolute, htotal] at hsize
        omega

section Rendered

variable {files : Files} {root cwd : List Name} {context : Context} {listing : Collection → List File}
  {metadata : String → Metadata} {page : Page}

/-- What is written for a link to a documentation source. -/
theorem renderURL_destination {bundle : Bundle} {asImage : Bool} {url url' : String} {target : Target}
    {destination : Page} (hlocal : localTarget files bundle.root page (some url) = .ok (some target))
    (hdestination : bundle.destination target = some destination)
    (h : renderURL files cwd bundle context page asImage url = .ok url') :
    url' = relative cwd page.target destination.target ++ target.suffix := by
  unfold renderURL at h
  rw [hlocal] at h
  simp only [bind, Except.bind, hdestination] at h
  exact (Except.ok.inj h).symm

theorem renderKind_url {bundle : Bundle} {images : List String} {kind kind' : Kind} {url : String}
    (hurl : kind.url = some url) (h : renderKind files cwd bundle context page images kind = .ok kind') :
    ∃ asImage url', renderURL files cwd bundle context page asImage url = .ok url' ∧ kind'.url = some url' := by
  cases kind with
  | link =>
      cases hurl
      simp only [renderKind, bind_ok, pure_ok] at h
      obtain ⟨url', hrender, rfl⟩ := h
      exact ⟨_, url', hrender, rfl⟩
  | image =>
      cases hurl
      simp only [renderKind, bind_ok, pure_ok] at h
      obtain ⟨url', hrender, rfl⟩ := h
      exact ⟨_, url', hrender, rfl⟩
  | definition =>
      cases hurl
      simp only [renderKind, bind_ok, pure_ok] at h
      obtain ⟨url', hrender, rfl⟩ := h
      exact ⟨_, url', hrender, rfl⟩
  | _ => cases hurl

theorem denotes_loaded {destination : Page} {url : String} {target : Target}
    (hpage : page ∈ loadPages listing metadata) (hdestination : destination ∈ loadPages listing metadata)
    (hlocal : localTarget files root page (some url) = .ok (some target)) :
    Denotes root page destination target.suffix (relative cwd page.target destination.target ++ target.suffix) ↔
      ∀ name ∈ spelled page destination, Plain name := by
  obtain ⟨a, ha, hpa, htarget⟩ := target_names hpage
  obtain ⟨b, hb, hpb, htarget'⟩ := target_names hdestination
  obtain ⟨absolute, hread⟩ := localTarget_suffix hlocal
  obtain ⟨hsuffix, hline⟩ := readLink_suffix hread
  exact denotes_iff ha hpa hb hpb htarget htarget' hline hsuffix

/-- A rewritten link denotes the generated page of its source, with its suffix, exactly when no name
that it spells holds `%`, `?` or `#`. -/
theorem renderPage_links (hpage : page ∈ loadPages listing metadata) {tree tree' : Node}
    (h : renderPage files cwd ⟨root, loadPages listing metadata⟩ context page tree = .ok tree') :
    List.Forall₂ (fun kind kind' : Kind => ∀ url target destination, kind.url = some url →
      localTarget files root page (some url) = .ok (some target) →
      Bundle.destination ⟨root, loadPages listing metadata⟩ target = some destination →
        ∃ url', kind'.url = some url' ∧ (Denotes root page destination target.suffix url' ↔
          ∀ name ∈ spelled page destination, Plain name)) tree.kinds tree'.kinds := by
  refine (mapKinds_kinds h).imp fun kind kind' hkind => ?_
  intro url target destination hurl hlocal hdestination
  obtain ⟨asImage, url', hrender, hurl'⟩ := renderKind_url hurl hkind
  have hwritten := @renderURL_destination _ _ _ _ ⟨root, loadPages listing metadata⟩ _ _ _ _ _ hlocal
    hdestination hrender
  refine ⟨url', hurl', ?_⟩
  rw [hwritten]
  exact denotes_loaded hpage (destination_mem hdestination) hlocal

end Rendered

/-! ## A handbook of one page -/

theorem exists_of_map {α β ε : Type} {x : Except ε α} {f : α → β} {b : β} (h : x.map f = .ok b) :
    ∃ a, x = .ok a ∧ f a = b := by
  cases x with
  | error e => cases h
  | ok a => exact ⟨a, rfl, Except.ok.inj h⟩

def questionFile : File :=
  ⟨["what?.md".toList], List.cons_ne_nil _ _, List.forall_mem_singleton.mpr
    ⟨by decide, by decide, by decide, by decide⟩⟩

def projectFile : File :=
  ⟨["project.md".toList], List.cons_ne_nil _ _, List.forall_mem_singleton.mpr
    ⟨by decide, by decide, by decide, by decide⟩⟩

def onePage (file : File) : Collection → List File
  | .handbook => [file]
  | _ => []

def noMetadata : String → Metadata := fun _ =>
  ⟨.undefined, .undefined, .undefined, .undefined, .undefined, .undefined, .undefined, .undefined⟩

def repository : List Name := ["repo".toList]

/-- A file system that has every file. -/
def everyFile : Files := fun _ => some .file

/-- The overview, which holds the link. -/
def overviewPage : Page := readPage noMetadata .overview

def renderOverview (file : File) (url : String) : Except String Node :=
  renderPage everyFile repository ⟨repository, loadPages (onePage file) noMetadata⟩ ⟨none, "HEAD"⟩ overviewPage
    (.node (.link url) none [])

theorem renderPage_links_project :
    ∃ url, (∃ tree, renderOverview projectFile "handbook/project.md#top" = .ok tree ∧ tree.kinds = [.link url]) ∧
      Denotes repository overviewPage (readPage noMetadata (.record .handbook projectFile)) "#top" url := by
  obtain ⟨tree, htree, hkinds⟩ := exists_of_map (x := renderOverview projectFile "handbook/project.md#top")
    (f := Node.kinds) (b := [.link "./handbook/project.md#top"]) (by decide +kernel)
  refine ⟨_, ⟨tree, htree, hkinds⟩, ?_⟩
  have hpage : overviewPage ∈ loadPages (onePage projectFile) noMetadata := List.mem_cons_self
  have hlinks := renderPage_links hpage htree
  rw [hkinds] at hlinks
  cases hlinks with
  | cons hlink _ =>
      obtain ⟨url', hurl', hdenotes⟩ := hlink _ ⟨"docs/handbook/project.md", "#top", false⟩
        (readPage noMetadata (.record .handbook projectFile)) rfl (by decide +kernel) (by decide +kernel)
      cases hurl'
      exact hdenotes.mpr (by decide +kernel)

/-- The link to `what?.md` is read as one to `what`. -/
theorem renderPage_links_question :
    ∃ target destination url,
      localTarget everyFile repository overviewPage (some "handbook/what%3F.md") = .ok (some target) ∧
      Bundle.destination ⟨repository, loadPages (onePage questionFile) noMetadata⟩ target = some destination ∧
      (∃ tree, renderOverview questionFile "handbook/what%3F.md" = .ok tree ∧ tree.kinds = [.link url]) ∧
      ¬ Denotes repository overviewPage destination target.suffix url := by
  refine ⟨⟨"docs/handbook/what?.md", "", false⟩, readPage noMetadata (.record .handbook questionFile),
    "./handbook/what?.md", by decide +kernel, by decide +kernel, ?_, by decide +kernel⟩
  exact exists_of_map (by decide +kernel)

end Go42.Pages
