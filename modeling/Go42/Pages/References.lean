-- SUMMARY: References between pages: the walk over replacements ends, and it accepts exactly the chains of superseded decisions up to an accepted one.
import Go42.Lib.Links
import Go42.Pages.Metadata

/-!
# References between pages

A decision that is superseded names its replacement, which may be superseded in turn. The
names form a graph in which every page has one link at most, so a walk can run into a cycle,
from inside or over a tail.
-/

namespace Go42.Pages

open Links

/-- The replacement that `current` names, and `none` when it names none. -/
def replacement (ids : Ids) (current : Page) : Except String (Option (String × Page)) :=
  let id := current.metadata.supersededBy
  if !id.truthy then .ok none
  else
    let unfit := current.source ++ ": replacement " ++ id.text ++ " must be an accepted or superseded decision"
    match ids.get id with
    | none => .error unfit
    | some replacement =>
      if replacement.collection != .decisions ||
          !replacement.metadata.status.isString ["accepted", "superseded"].contains then .error unfit
      else .ok (some (id.text, replacement))

def validateRelated (page : Page) (ids : Ids) : Except String Unit :=
  page.metadata.related.strings.forM fun id =>
    throwIf (ids.get (.str id)).isNone (page.source ++ ": unknown related document " ++ id)

/-- The rounds of the inner loop for one page. -/
def followReplacements (fuel : ℕ) (page : Page) (ids : Ids) : Option (Except String Unit) :=
  walk (replacement ids) (fun id => page.source ++ ": decision replacement cycle through " ++ id) fuel
    [page.id] page

/-- `none` when an inner loop has not ended after `fuel` rounds. -/
def validateReferences (fuel : ℕ) (ids : Ids) : List Page → Option (Except String Unit)
  | [] => some (.ok ())
  | page :: pages =>
    match validateRelated page ids with
    | .error e => some (.error e)
    | .ok () =>
      match followReplacements fuel page ids with
      | some (.ok ()) => validateReferences fuel ids pages
      | stopped => stopped

/-! ## What is accepted -/

/-- `q` is the page that `p` names as its replacement. -/
def Follows (pages : List Page) (p q : Page) : Prop :=
  q ∈ pages ∧ p.metadata.supersededBy.truthy = true ∧ p.metadata.supersededBy = q.metadata.id

/-- `reached` are the pages that replace `page`, one after the other. -/
structure Replaced (pages : List Page) (page : Page) (reached : List Page) : Prop where
  follows : List.IsChain (Follows pages) (page :: reached)
  ends : ∀ q ∈ (page :: reached).getLast?, q.metadata.supersededBy.truthy = false
  distinct : (page :: reached).Nodup
  decisions : ∀ q ∈ reached, q.collection = .decisions
  superseded : ∀ q ∈ reached.dropLast, q.metadata.status = .str "superseded"
  accepted : ∀ q ∈ reached.getLast?, q.metadata.status = .str "accepted"

/-- Every related id is the id of a page. -/
def RelatedExist (pages : List Page) : Prop :=
  ∀ page ∈ pages, ∀ id ∈ page.metadata.related.strings, ∃ q ∈ pages, q.metadata.id = .str id

/-- A page that may replace another one. -/
def Fit (q : Page) : Prop :=
  q.collection = .decisions ∧ (q.metadata.status = .str "accepted" ∨ q.metadata.status = .str "superseded")

section Passed

variable {pages : List Page} {ids : Ids}

theorem fit_iff {q : Page} : Fit q ↔ (q.collection != .decisions ||
    !q.metadata.status.isString ["accepted", "superseded"].contains) = false := by
  have hstatus : q.metadata.status.isString ["accepted", "superseded"].contains = true ↔
      q.metadata.status = .str "accepted" ∨ q.metadata.status = .str "superseded" := by
    rw [Value.isString_iff]
    simp [and_or_left, exists_or]
  rw [Fit, ← hstatus, Bool.or_eq_false_iff, bne_eq_false_iff_eq, Bool.not_eq_false']

/-- A page names no replacement, or one that is not fit, or one that is. -/
theorem replacement_cases (h : validatePages pages = .ok ids) (p : Page) :
    (p.metadata.supersededBy.truthy = false ∧ replacement ids p = .ok none) ∨
    ((¬ ∃ q, Follows pages p q ∧ Fit q) ∧ p.metadata.supersededBy.truthy = true ∧
      ∃ e, replacement ids p = .error e) ∨
    ∃ q, Follows pages p q ∧ Fit q ∧ replacement ids p = .ok (some (q.id, q)) := by
  have hget {q : Page} (hfollows : Follows pages p q) : ids.get p.metadata.supersededBy = some q := by
    refine (get_eq_some_iff h).mpr ⟨hfollows.1, hfollows.2.2.trans ?_⟩
    exact ((validatePages_ok h).1 q hfollows.1).id
  unfold replacement
  dsimp only
  split
  case isTrue htruthy => exact .inl ⟨by simpa using htruthy, rfl⟩
  case isFalse htruthy =>
    have htruthy : p.metadata.supersededBy.truthy = true := by simpa using htruthy
    split
    case h_1 hnone =>
      refine .inr (.inl ⟨?_, htruthy, _, rfl⟩)
      rintro ⟨q, hfollows, -⟩
      rw [hget hfollows] at hnone
      cases hnone
    case h_2 q hq =>
      obtain ⟨hmem, hid⟩ := (get_eq_some_iff h).mp hq
      have hqid : q.metadata.id = .str q.id := ((validatePages_ok h).1 q hmem).id
      split
      case isTrue hunfit =>
        refine .inr (.inl ⟨?_, htruthy, _, rfl⟩)
        rintro ⟨q', hfollows, hfit⟩
        cases hq.symm.trans (hget hfollows)
        exact absurd hunfit (by rw [fit_iff.mp hfit]; exact Bool.false_ne_true)
      case isFalse hfit =>
        refine .inr (.inr ⟨q, ⟨hmem, htruthy, hid.trans hqid.symm⟩, ?_, ?_⟩)
        · exact fit_iff.mpr (Bool.eq_false_of_not_eq_true hfit)
        · rw [hid, Value.text]

theorem replacement_none_iff (h : validatePages pages = .ok ids) {p : Page} :
    replacement ids p = .ok none ↔ p.metadata.supersededBy.truthy = false := by
  rcases replacement_cases h p with ⟨hfalsy, hr⟩ | ⟨-, htruthy, e, hr⟩ | ⟨q, hfollows, -, hr⟩
  · simp [hfalsy, hr]
  · simp [htruthy, hr]
  · simp [hfollows.2.1, hr]

theorem replacement_some_iff (h : validatePages pages = .ok ids) {p q : Page} {k : String} :
    replacement ids p = .ok (some (k, q)) ↔ Follows pages p q ∧ Fit q ∧ k = q.id := by
  rcases replacement_cases h p with ⟨hfalsy, hr⟩ | ⟨hunfit, -, e, hr⟩ | ⟨q', hfollows, hfit, hr⟩
  · rw [hr]
    exact ⟨fun heq => (nomatch heq), fun hq => absurd hq.1.2.1 (by rw [hfalsy]; exact Bool.false_ne_true)⟩
  · rw [hr]
    exact ⟨fun heq => (nomatch heq), fun hq => absurd ⟨q, hq.1, hq.2.1⟩ hunfit⟩
  · rw [hr]
    constructor
    case mp =>
      intro heq
      cases heq
      exact ⟨hfollows, hfit, rfl⟩
    case mpr =>
      rintro ⟨hq, -, rfl⟩
      have hid (r : Page) (hr : r ∈ pages) : r.metadata.id = .str r.id := ((validatePages_ok h).1 r hr).id
      have hsame : q'.id = q.id := by
        have heq := hfollows.2.2.symm.trans hq.2.2
        rw [hid q' hfollows.1, hid q hq.1] at heq
        exact Value.str.inj heq
      rw [page_eq_of_id h hfollows.1 hq.1 hsame]

/-- The links of a walk are the pages that replace `p`, under their ids. -/
theorem chain_iff (h : validatePages pages = .ok ids) {p : Page} {chain : List (String × Page)} :
    Chain (replacement ids) p chain ↔ ∃ reached : List Page, chain = reached.map (fun q => (q.id, q)) ∧
      List.IsChain (Follows pages) (p :: reached) ∧
      (∀ q ∈ (p :: reached).getLast?, q.metadata.supersededBy.truthy = false) ∧ ∀ q ∈ reached, Fit q := by
  constructor
  case mp =>
    intro hchain
    induction hchain with
    | stop hstop =>
        refine ⟨[], rfl, .singleton _, fun q hq => ?_, fun q hq => (nomatch hq)⟩
        cases hq
        exact (replacement_none_iff h).mp hstop
    | @link a b k rest hlink _ ih =>
        obtain ⟨reached, rfl, hchain, hends, hfit⟩ := ih
        obtain ⟨hfollows, hb, rfl⟩ := (replacement_some_iff h).mp hlink
        refine ⟨b :: reached, rfl, .cons_cons hfollows hchain, ?_, List.forall_mem_cons.mpr ⟨hb, hfit⟩⟩
        rwa [List.getLast?_cons_cons]
  case mpr =>
    rintro ⟨reached, rfl, hchain, hends, hfit⟩
    induction reached generalizing p with
    | nil => exact .stop ((replacement_none_iff h).mpr (hends p rfl))
    | cons q reached ih =>
        rw [List.isChain_cons_cons] at hchain
        rw [List.getLast?_cons_cons] at hends
        refine .link ((replacement_some_iff h).mpr ⟨hchain.1, hfit q List.mem_cons_self, rfl⟩) ?_
        exact ih hchain.2 hends fun q hq => hfit q (List.mem_cons_of_mem _ hq)

/-- A superseded decision names a replacement, an accepted one does not. -/
theorem Fit.status_iff (h : validatePages pages = .ok ids) {q : Page} (hq : q ∈ pages) (hfit : Fit q) :
    (q.metadata.supersededBy.truthy = true → q.metadata.status = .str "superseded") ∧
    (q.metadata.supersededBy.truthy = false → q.metadata.status = .str "accepted") := by
  have hfits := ((validatePages_ok h).1 q hq).supersededBy hfit.1
  unfold supersededByFits at hfits
  rcases hfit.2 with haccepted | hsuperseded
  · rw [haccepted, if_neg (by decide), decide_eq_true_eq] at hfits
    rw [hfits]
    exact ⟨fun htruthy => (nomatch htruthy), fun _ => haccepted⟩
  · rw [hsuperseded, if_pos rfl, Value.isString_iff] at hfits
    obtain ⟨id, hid, hne⟩ := hfits
    rw [hid]
    exact ⟨fun _ => hsuperseded, fun hfalsy => absurd hne (by rw [← Value.truthy, hfalsy]; exact Bool.false_ne_true)⟩

theorem mem_of_follows {p : Page} {reached : List Page} (hchain : List.IsChain (Follows pages) (p :: reached)) :
    ∀ q ∈ reached, q ∈ pages := by
  induction reached generalizing p with
  | nil => exact fun q hq => (nomatch hq)
  | cons q reached ih =>
      rw [List.isChain_cons_cons] at hchain
      exact List.forall_mem_cons.mpr ⟨hchain.1.1, ih hchain.2⟩

/-- Every page of a chain but the last names a replacement. -/
theorem truthy_of_follows {p : Page} {reached : List Page} (hchain : List.IsChain (Follows pages) (p :: reached)) :
    ∀ q ∈ reached.dropLast, q.metadata.supersededBy.truthy = true := by
  induction reached generalizing p with
  | nil => exact fun q hq => (nomatch hq)
  | cons q reached ih =>
      rw [List.isChain_cons_cons] at hchain
      cases reached with
      | nil => exact fun q hq => (nomatch hq)
      | cons q' reached =>
          rw [List.dropLast_cons_cons]
          exact List.forall_mem_cons.mpr ⟨(List.isChain_cons_cons.mp hchain.2).1.2.1, ih hchain.2⟩

/-- The pages of a walk are distinct when their ids are. -/
theorem nodup_iff (h : validatePages pages = .ok ids) {p : Page} (hp : p ∈ pages) {reached : List Page}
    (hreached : ∀ q ∈ reached, q ∈ pages) :
    (p :: reached).Nodup ↔ (reached.map Page.id).Nodup ∧ ∀ k ∈ reached.map Page.id, k ∉ [p.id] := by
  have hids {l : List Page} (hl : ∀ q ∈ l, q ∈ pages) : l.Nodup ↔ (l.map Page.id).Nodup :=
    ⟨List.Nodup.map_on fun q hq r hr => page_eq_of_id h (hl q hq) (hl r hr), List.Nodup.of_map _⟩
  rw [hids (List.forall_mem_cons.mpr ⟨hp, hreached⟩), List.map_cons, List.nodup_cons, and_comm]
  refine and_congr_right fun _ => ⟨fun hp k hk hkp => hp (List.mem_singleton.mp hkp ▸ hk), fun hp hk => ?_⟩
  exact hp p.id hk (List.mem_singleton_self _)

/-- What the walk accepts, in terms of the pages. -/
theorem replaced_iff (h : validatePages pages = .ok ids) {p : Page} (hp : p ∈ pages) :
    (∃ chain, Chain (replacement ids) p chain ∧ (chain.map Prod.fst).Nodup ∧
      ∀ k ∈ chain.map Prod.fst, k ∉ [p.id]) ↔ ∃ reached, Replaced pages p reached := by
  have hids (reached : List Page) : (reached.map fun q => (q.id, q)).map Prod.fst = reached.map Page.id := by
    rw [List.map_map]
    rfl
  constructor
  case mp =>
    rintro ⟨chain, hchain, hnodup, hunseen⟩
    obtain ⟨reached, rfl, hfollows, hends, hfit⟩ := (chain_iff h).mp hchain
    rw [hids] at hnodup hunseen
    have hmem := mem_of_follows hfollows
    refine ⟨reached, hfollows, hends, (nodup_iff h hp hmem).mpr ⟨hnodup, hunseen⟩, fun q hq => (hfit q hq).1,
      fun q hq => ?_, fun q hq => ?_⟩
    · have hq' := (List.dropLast_subset reached) hq
      exact ((hfit q hq').status_iff h (hmem q hq')).1 (truthy_of_follows hfollows q hq)
    · have hq' := List.mem_of_getLast? hq
      refine ((hfit q hq').status_iff h (hmem q hq')).2 (hends q ?_)
      cases reached with
      | nil => cases hq
      | cons r reached => rwa [List.getLast?_cons_cons]
  case mpr =>
    rintro ⟨reached, hreached⟩
    have hmem := mem_of_follows hreached.follows
    obtain ⟨hnodup, hunseen⟩ := (nodup_iff h hp hmem).mp hreached.distinct
    have hfit : ∀ q ∈ reached, Fit q := by
      intro q hq
      refine ⟨hreached.decisions q hq, ?_⟩
      rcases List.eq_nil_or_concat reached with rfl | ⟨front, last, rfl⟩
      · exact nomatch hq
      · rw [List.concat_eq_append] at *
        rcases List.mem_append.mp hq with hq | hq
        · exact .inr (hreached.superseded q (by rwa [List.dropLast_concat]))
        · exact .inl (hreached.accepted q (by rw [List.getLast?_concat, List.mem_singleton.mp hq]; rfl))
    refine ⟨_, (chain_iff h).mpr ⟨reached, rfl, hreached.follows, hreached.ends, hfit⟩, ?_⟩
    rw [hids]
    exact ⟨hnodup, hunseen⟩

/-- The inner loop ends for every page. -/
theorem followReplacements_ends (h : validatePages pages = .ok ids) {fuel : ℕ} (hfuel : pages.length < fuel)
    (p : Page) : ∃ r, followReplacements fuel p ids = some r := by
  have hnames (a : Page) (k : String) (b : Page) (hlink : replacement ids a = .ok (some (k, b))) :
      k ∈ pages.map Page.id := by
    obtain ⟨hfollows, -, rfl⟩ := (replacement_some_iff h).mp hlink
    exact List.mem_map_of_mem hfollows.1
  refine walk_ends hnames (Nat.lt_of_le_of_lt ?_ hfuel)
  exact (List.length_filter_le _ _).trans_eq (List.length_map _)

theorem followReplacements_ok_iff (h : validatePages pages = .ok ids) {fuel : ℕ} (hfuel : pages.length < fuel)
    {p : Page} (hp : p ∈ pages) :
    followReplacements fuel p ids = some (.ok ()) ↔
      (p.metadata.supersededBy.truthy = true → ∃ reached, Replaced pages p reached) := by
  obtain ⟨r, hr⟩ := followReplacements_ends h hfuel p
  have hiff := (walk_ok_iff hr).trans (replaced_iff h hp)
  rw [hr, Option.some.injEq, hiff]
  refine ⟨fun hreached _ => hreached, fun hreached => ?_⟩
  cases htruthy : p.metadata.supersededBy.truthy with
  | true => exact hreached htruthy
  | false =>
      refine ⟨[], .singleton _, fun q hq => ?_, List.nodup_singleton _, ?_, ?_, ?_⟩
      · cases hq
        exact htruthy
      all_goals exact fun q hq => (nomatch hq)

theorem validateRelated_ok_iff (h : validatePages pages = .ok ids) {p : Page} :
    validateRelated p ids = .ok () ↔ ∀ id ∈ p.metadata.related.strings, ∃ q ∈ pages, q.metadata.id = .str id := by
  simp only [validateRelated, forM_ok, throwIf_ok]
  refine forall₂_congr fun id _ => ?_
  rw [Option.isNone_eq_false_iff, Option.isSome_iff_exists]
  refine exists_congr fun q => ?_
  rw [get_eq_some_iff h]
  refine and_congr_right fun hq => ?_
  rw [((validatePages_ok h).1 q hq).id]
  exact eq_comm

theorem validateReferences_from (h : validatePages pages = .ok ids) {fuel : ℕ} (hfuel : pages.length < fuel)
    {rest : List Page} (hrest : ∀ p ∈ rest, p ∈ pages) :
    ∃ r, validateReferences fuel ids rest = some r ∧ (r = .ok () ↔ ∀ p ∈ rest,
      (∀ id ∈ p.metadata.related.strings, ∃ q ∈ pages, q.metadata.id = .str id) ∧
      (p.metadata.supersededBy.truthy = true → ∃ reached, Replaced pages p reached)) := by
  induction rest with
  | nil => exact ⟨.ok (), rfl, by simp⟩
  | cons p rest ih =>
      obtain ⟨hp, hrest⟩ := List.forall_mem_cons.mp hrest
      have hrelated := validateRelated_ok_iff h (p := p)
      have hfollow := followReplacements_ok_iff h hfuel hp
      obtain ⟨r, hr⟩ := followReplacements_ends h hfuel p
      simp only [validateReferences, List.forall_mem_cons]
      rw [← hrelated, ← hfollow]
      cases hv : validateRelated p ids with
      | error e => exact ⟨_, rfl, by simp⟩
      | ok u =>
          rw [hr]
          cases r with
          | error e => exact ⟨_, rfl, by simp⟩
          | ok u =>
              obtain ⟨r', hr', hiff⟩ := ih hrest
              exact ⟨r', hr', by simpa using hiff⟩

/-- The loops end, and the pages are accepted exactly when related ids exist and every page that
names a replacement is replaced, by distinct decisions, up to an accepted one. -/
theorem validateReferences_iff (h : validatePages pages = .ok ids) {fuel : ℕ} (hfuel : pages.length < fuel) :
    (∀ p ∈ pages, ∃ r, followReplacements fuel p ids = some r) ∧
    ∃ r, validateReferences fuel ids pages = some r ∧ (r = .ok () ↔ RelatedExist pages ∧
      ∀ p ∈ pages, p.metadata.supersededBy.truthy = true → ∃ reached, Replaced pages p reached) := by
  refine ⟨fun p _ => followReplacements_ends h hfuel p, ?_⟩
  obtain ⟨r, hr, hiff⟩ := validateReferences_from h hfuel fun p hp => hp
  refine ⟨r, hr, hiff.trans ?_⟩
  rw [RelatedExist, ← forall₂_and]

end Passed

/-! ## Two decisions -/

/-- A decision under an id, with its status and what replaces it. -/
def decision (id status : String) (supersededBy : Value) : Page where
  source := "docs/decisions/" ++ id ++ ".md"
  target := "decisions/" ++ id ++ ".md"
  collection := .decisions
  metadata := {
    id := .str id
    title := .str "Model"
    collection := .str "decisions"
    sidebarPosition := .undefined
    related := .undefined
    status := .str status
    date := .str "2026-09-11"
    supersededBy := supersededBy }

/-- Two superseded decisions and an accepted one, and a tail into a cycle of two. -/
def chain : List Page :=
  [decision "ADR-001" "superseded" (.str "ADR-002"), decision "ADR-002" "superseded" (.str "ADR-003"),
    decision "ADR-003" "accepted" .undefined]

def tailIntoCycle : List Page :=
  [decision "ADR-001" "superseded" (.str "ADR-002"), decision "ADR-002" "superseded" (.str "ADR-003"),
    decision "ADR-003" "superseded" (.str "ADR-002")]

/-- Both pass the checks of their front matter, and the chain alone is accepted. -/
theorem validateReferences_iff_both :
    (∀ p ∈ chain, p.metadata.supersededBy.truthy = true → ∃ reached, Replaced chain p reached) ∧
    ¬ (RelatedExist tailIntoCycle ∧ ∀ p ∈ tailIntoCycle, p.metadata.supersededBy.truthy = true →
      ∃ reached, Replaced tailIntoCycle p reached) := by
  have hchain : validatePages chain = .ok (chain.map fun p => (p.id, p)) := by decide +kernel
  have htail : validatePages tailIntoCycle = .ok (tailIntoCycle.map fun p => (p.id, p)) := by decide +kernel
  have hfuel : chain.length < 4 := by decide
  have hfuel' : tailIntoCycle.length < 4 := by decide
  obtain ⟨-, r, hr, hiff⟩ := validateReferences_iff hchain hfuel
  obtain ⟨-, r', hr', hiff'⟩ := validateReferences_iff htail hfuel'
  have haccepted : validateReferences 4 (chain.map fun p => (p.id, p)) chain = some (.ok ()) := by
    decide +kernel
  have hrejected : validateReferences 4 (tailIntoCycle.map fun p => (p.id, p)) tailIntoCycle ≠ some (.ok ()) := by
    decide +kernel
  refine ⟨(hiff.mp (Option.some.inj (hr.symm.trans haccepted))).2, fun h => hrejected ?_⟩
  rw [hr', hiff'.mpr h]

end Go42.Pages
