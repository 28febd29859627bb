-- SUMMARY: The shared bounds of paginated operations, and what passes them.
import Go42.Lib.GoError
import Mathlib.Data.Int.Notation

/-!
# Pagination
-/

namespace Go42.Tools

def paginationDefaultLimit : ℤ := 10
def paginationMaximumLimit : ℤ := 100
def paginationMaximumOffset : ℤ := 2147483647

def errInvalidPagination : GoError := .leaf "invalid pagination"

structure Pagination where
  limit : ℤ
  offset : ℤ
deriving DecidableEq, Repr

def normalizePagination (limit offset : ℤ) : Except GoError Pagination :=
  let limit := if limit = 0 then paginationDefaultLimit else limit
  if limit < 0 ∨ paginationMaximumLimit < limit ∨ offset < 0 ∨ paginationMaximumOffset < offset then
    .error errInvalidPagination
  else .ok ⟨limit, offset⟩

/-- A page is never empty and within both bounds. -/
structure Pagination.Bounded (page : Pagination) : Prop where
  limit_pos : 1 ≤ page.limit
  limit_le : page.limit ≤ paginationMaximumLimit
  offset_nonneg : 0 ≤ page.offset
  offset_le : page.offset ≤ paginationMaximumOffset

theorem normalizePagination_cases (limit offset : ℤ) :
    normalizePagination limit offset = .error errInvalidPagination ∨
      ∃ page, normalizePagination limit offset = .ok page ∧ page.Bounded := by
  -- Zero stands for the default, so the limit that is used is not zero.
  have hused : (if limit = 0 then paginationDefaultLimit else limit) ≠ 0 := by
    split
    · decide
    · assumption
  simp only [normalizePagination]
  generalize (if limit = 0 then paginationDefaultLimit else limit) = used at hused ⊢
  split
  · exact .inl rfl
  · rename_i hbounds
    simp only [not_or, Int.not_lt] at hbounds
    obtain ⟨hnonneg, hmax, hoffset, hoffsetMax⟩ := hbounds
    exact .inr ⟨_, rfl, by show 1 ≤ used; omega, hmax, hoffset, hoffsetMax⟩

end Go42.Tools
