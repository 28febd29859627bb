-- SUMMARY: Following links with a visited set: the walk ends, and it succeeds exactly on a chain that stops before it repeats a node.
import Mathlib.Data.List.Basic
import Mathlib.Data.List.Nodup

/-!
# Following links

A walk asks a node for its link, which is absent, broken, or leads to a named node. It
keeps the names it has seen and fails on the first one it meets again.
-/

namespace Go42.Links

variable {α κ ε : Type} [DecidableEq κ]

/-- A walk from a node, which has seen `seen`; `none` when it has not ended after `fuel` rounds. -/
def walk (next : α → Except ε (Option (κ × α))) (cycle : κ → ε) : ℕ → List κ → α → Option (Except ε Unit)
  | 0, _, _ => none
  | fuel + 1, seen, a =>
    match next a with
    | .error e => some (.error e)
    | .ok none => some (.ok ())
    | .ok (some (k, b)) => if k ∈ seen then some (.error (cycle k)) else walk next cycle fuel (k :: seen) b

/-- The links from `a`, in order, up to a node that has none. -/
inductive Chain (next : α → Except ε (Option (κ × α))) : α → List (κ × α) → Prop
  | stop {a : α} : next a = .ok none → Chain next a []
  | link {a b : α} {k : κ} {rest : List (κ × α)} :
      next a = .ok (some (k, b)) → Chain next b rest → Chain next a ((k, b) :: rest)

variable {next : α → Except ε (Option (κ × α))} {cycle : κ → ε}

/-! ## Termination -/

/-- The names of `names` that have not been seen. -/
def unseen (names seen : List κ) : List κ := names.filter fun k => decide (k ∉ seen)

theorem unseen_lt {names seen : List κ} {k : κ} (hk : k ∈ names) (hfresh : k ∉ seen) :
    (unseen names (k :: seen)).length < (unseen names seen).length := by
  have hsub : unseen names (k :: seen) = (unseen names seen).filter fun k' => decide (k' ≠ k) := by
    rw [unseen, unseen, List.filter_filter]
    refine List.filter_congr fun k' _ => ?_
    simp only [List.mem_cons, not_or, Bool.decide_and]
  rw [hsub]
  refine List.length_filter_lt_length_iff_exists.mpr ⟨k, ?_, by simp⟩
  exact List.mem_filter.mpr ⟨hk, decide_eq_true hfresh⟩

/-- Every link adds a name that was not seen, so the walk ends when there are finitely many. -/
theorem walk_ends {names : List κ} (hnames : ∀ a k b, next a = .ok (some (k, b)) → k ∈ names) {fuel : ℕ}
    {seen : List κ} {a : α} (hfuel : (unseen names seen).length < fuel) :
    ∃ r, walk next cycle fuel seen a = some r := by
  induction fuel generalizing seen a with
  | zero => exact absurd hfuel (Nat.not_lt_zero _)
  | succ fuel ih =>
      unfold walk
      split
      case h_1 => exact ⟨_, rfl⟩
      case h_2 => exact ⟨_, rfl⟩
      case h_3 k b hnext =>
        split
        case isTrue => exact ⟨_, rfl⟩
        case isFalse hfresh =>
          have hlt := unseen_lt (hnames a k b hnext) hfresh
          exact ih (Nat.lt_of_lt_of_le hlt (Nat.le_of_lt_succ hfuel))

/-! ## Acceptance -/

theorem walk_sound {fuel : ℕ} {seen : List κ} {a : α} (h : walk next cycle fuel seen a = some (.ok ())) :
    ∃ chain, Chain next a chain ∧ (chain.map Prod.fst).Nodup ∧ ∀ k ∈ chain.map Prod.fst, k ∉ seen := by
  induction fuel generalizing seen a with
  | zero => cases h
  | succ fuel ih =>
      unfold walk at h
      split at h
      case h_1 => cases h
      case h_2 hstop => exact ⟨[], .stop hstop, List.nodup_nil, fun k hk => nomatch hk⟩
      case h_3 k b hnext =>
        split at h
        case isTrue => cases h
        case isFalse hfresh =>
          obtain ⟨chain, hchain, hnodup, hunseen⟩ := ih h
          refine ⟨(k, b) :: chain, .link hnext hchain, ?_, ?_⟩
          · exact List.nodup_cons.mpr ⟨fun hmem => hunseen k hmem List.mem_cons_self, hnodup⟩
          · intro k' hk'
            rcases List.mem_cons.mp hk' with rfl | hk'
            · exact hfresh
            · exact fun hseen => hunseen k' hk' (List.mem_cons_of_mem _ hseen)

theorem walk_complete {fuel : ℕ} {seen : List κ} {a : α} {chain : List (κ × α)} {r : Except ε Unit}
    (hchain : Chain next a chain) (hnodup : (chain.map Prod.fst).Nodup)
    (hunseen : ∀ k ∈ chain.map Prod.fst, k ∉ seen) (h : walk next cycle fuel seen a = some r) : r = .ok () := by
  induction hchain generalizing fuel seen with
  | stop hstop =>
      cases fuel with
      | zero => cases h
      | succ fuel =>
          simp only [walk, hstop] at h
          exact (Option.some.inj h).symm
  | @link a b k rest hnext _ ih =>
      cases fuel with
      | zero => cases h
      | succ fuel =>
          have hfresh : k ∉ seen := hunseen k List.mem_cons_self
          simp only [walk, hnext, hfresh, if_false] at h
          refine ih (List.nodup_cons.mp hnodup).2 (fun k' hk' hseen => ?_) h
          rcases List.mem_cons.mp hseen with rfl | hseen
          · exact (List.nodup_cons.mp hnodup).1 hk'
          · exact hunseen k' (List.mem_cons_of_mem _ hk') hseen

/-- A walk that has ended succeeded exactly when it followed a chain without repetition. -/
theorem walk_ok_iff {fuel : ℕ} {seen : List κ} {a : α} {r : Except ε Unit}
    (h : walk next cycle fuel seen a = some r) :
    r = .ok () ↔ ∃ chain, Chain next a chain ∧ (chain.map Prod.fst).Nodup ∧
      ∀ k ∈ chain.map Prod.fst, k ∉ seen := by
  constructor
  case mp =>
    rintro rfl
    exact walk_sound h
  case mpr =>
    rintro ⟨chain, hchain, hnodup, hunseen⟩
    exact walk_complete hchain hnodup hunseen h

end Go42.Links
