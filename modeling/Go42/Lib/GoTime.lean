-- SUMMARY: Go's `time.Time`: an instant in a zone, its calendar date, and its text in a layout whose byte order is the order of instants in UTC.
import Go42.Lib.Base64
import Mathlib.Algebra.Order.Ring.Int
import Mathlib.Tactic.NormNum

/-!
# Times and their text

The calendar is the Gregorian one, extended over all years. In the layout
`2006-01-02 15:04:05.999999999-07:00` each field has a fixed width, except for the fraction,
whose trailing zeros are dropped. What follows a shorter fraction is the sign of the zone, which
is less than the point and every digit.
-/

namespace Go42

/-- Nanoseconds since the Unix epoch, and the seconds by which the zone is east of UTC. -/
structure GoTime where
  unixNano : ℤ
  offset : ℤ
deriving DecidableEq, Repr

namespace GoTime

/-- `t.UTC()`. -/
def utc (t : GoTime) : GoTime := { t with offset := 0 }

/-! ## The calendar -/

/-- The days before the first of January of a year, counted from the first of year 1. -/
def daysBefore (year : ℤ) : ℤ :=
  365 * (year - 1) + (year - 1) / 4 - (year - 1) / 100 + (year - 1) / 400

/-- The year of a day: cycles of 400 years, centuries, cycles of four years, and years. The last
century and the last year of a cycle are a day longer. -/
def yearOf (day : ℤ) : ℤ :=
  let inCycle := day % 146097
  let centuries := min (inCycle / 36524) 3
  let inCentury := inCycle - 36524 * centuries
  let years := min (inCentury % 1461 / 365) 3
  400 * (day / 146097) + 100 * centuries + 4 * (inCentury / 1461) + years + 1

def isLeap (year : ℤ) : Bool := year % 4 = 0 && (year % 100 ≠ 0 || year % 400 = 0)

/-- The days of a year before its months. -/
def monthStarts (leap : Bool) : List ℤ :=
  if leap then [0, 31, 60, 91, 121, 152, 182, 213, 244, 274, 305, 335]
  else [0, 31, 59, 90, 120, 151, 181, 212, 243, 273, 304, 334]

/-- The months that have begun by a day of the year. -/
def monthsBegun (leap : Bool) (yearDay : ℤ) : List ℤ :=
  (monthStarts leap).filter fun start => start ≤ yearDay

structure Civil where
  year : ℤ
  month : ℕ
  day : ℤ
  hour : ℤ
  minute : ℤ
  second : ℤ
  nanosecond : ℤ
deriving DecidableEq, Repr

def nanosPerDay : ℤ := 86400000000000

/-- The fields of a number of nanoseconds since the Unix epoch, which was day 719162. -/
def civil (nano : ℤ) : Civil :=
  let day := nano / nanosPerDay + 719162
  let year := yearOf day
  let yearDay := day - daysBefore year
  let begun := monthsBegun (isLeap year) yearDay
  let inDay := nano % nanosPerDay
  let second := inDay / 1000000000
  { year := year
    month := begun.length
    day := yearDay - begun.getLast?.getD 0 + 1
    hour := second / 3600
    minute := second / 60 % 60
    second := second % 60
    nanosecond := inDay % 1000000000 }

/-! ## The text -/

/-- A decimal digit. -/
def digit (n : ℕ) : UInt8 := .ofNat (48 + n)

/-- A number in at least `width` digits, when it has no more. -/
def digits : ℕ → ℕ → List ℕ
  | 0, _ => []
  | width + 1, n => n / 10 ^ width % 10 :: digits width (n % 10 ^ width)

/-- A field of fixed width. -/
def field (width : ℕ) (n : ℤ) : Bytes := (digits width n.toNat).map digit

/-- Without the trailing zeros. -/
def trim : List ℕ → List ℕ
  | [] => []
  | d :: ds => if d = 0 ∧ trim ds = [] then [] else d :: trim ds

/-- `.999999999`. -/
def fraction (nanosecond : ℤ) : Bytes :=
  match trim (digits 9 nanosecond.toNat) with
  | [] => []
  | ds => 46 :: ds.map digit

/-- `-07:00`. -/
def zone (offset : ℤ) : Bytes :=
  let minutes := offset.tdiv 60
  (if minutes < 0 then 45 else 43) ::
    (field 2 (minutes.natAbs / 60) ++ 58 :: field 2 (minutes.natAbs % 60))

/-- `t.Format("2006-01-02 15:04:05.999999999-07:00")`, for a year of four digits. -/
def format (t : GoTime) : Bytes :=
  let c := civil (t.unixNano + t.offset * 1000000000)
  field 4 c.year ++ 45 :: (field 2 c.month ++ 45 :: (field 2 c.day ++ 32 :: (field 2 c.hour ++
    58 :: (field 2 c.minute ++ 58 :: (field 2 c.second ++ (fraction c.nanosecond ++ zone t.offset))))))

/-! ## Dates follow instants -/

/-- A day by its cycle of 400 years, century, cycle of four years, year, and place in the year. -/
theorem yearOf_parts (day : ℤ) : ∃ cycle century quad year place : ℤ,
    yearOf day = 400 * cycle + 100 * century + 4 * quad + year + 1 ∧
      day = 146097 * cycle + 36524 * century + 1461 * quad + 365 * year + place ∧
      (0 ≤ century ∧ century ≤ 3) ∧ (0 ≤ quad ∧ quad ≤ 24) ∧ (0 ≤ year ∧ year ≤ 3) ∧ 0 ≤ place ∧
      (place < 365 ∨ place = 365 ∧ year = 3 ∧ (quad < 24 ∨ century = 3)) := by
  have hday := Int.mul_ediv_add_emod day 146097
  have hnonneg := Int.emod_nonneg day (b := 146097) (by decide)
  have hlt := Int.emod_lt_of_pos day (b := 146097) (by decide)
  simp only [yearOf]
  generalize day / 146097 = cycle at *
  generalize day % 146097 = inCycle at *
  have hcentury : 0 ≤ min (inCycle / 36524) 3 ∧ min (inCycle / 36524) 3 ≤ 3 ∧
      36524 * min (inCycle / 36524) 3 ≤ inCycle ∧
      (inCycle - 36524 * min (inCycle / 36524) 3 < 36524 ∨ min (inCycle / 36524) 3 = 3) := by
    omega
  generalize min (inCycle / 36524) 3 = century at *
  generalize hinCentury : inCycle - 36524 * century = inCentury at *
  refine ⟨cycle, century, inCentury / 1461, min (inCentury % 1461 / 365) 3,
    inCentury % 1461 - 365 * min (inCentury % 1461 / 365) 3, rfl, ?_, ?_, ?_, ?_, ?_, ?_⟩
  all_goals omega

/-- A day is one of its year. -/
theorem yearOf_spec (day : ℤ) : daysBefore (yearOf day) ≤ day ∧ day < daysBefore (yearOf day + 1) := by
  obtain ⟨cycle, century, quad, year, place, hyear, hday, hcentury, hquad, hyear', hplace, hlast⟩ :=
    yearOf_parts day
  rw [hyear, hday]
  simp only [daysBefore]
  omega

theorem daysBefore_mono {year year' : ℤ} (h : year ≤ year') : daysBefore year ≤ daysBefore year' := by
  simp only [daysBefore]
  omega

theorem daysBefore_succ (year : ℤ) : daysBefore (year + 1) ≤ daysBefore year + 366 := by
  simp only [daysBefore]
  omega

theorem yearOf_mono {day day' : ℤ} (h : day ≤ day') : yearOf day ≤ yearOf day' := by
  by_contra hlt
  have hbefore : daysBefore (yearOf day' + 1) ≤ daysBefore (yearOf day) := daysBefore_mono (by omega)
  have := (yearOf_spec day).1
  have := (yearOf_spec day').2
  omega

theorem monthsBegun_sublist (leap : Bool) {yearDay yearDay' : ℤ} (h : yearDay ≤ yearDay') :
    (monthsBegun leap yearDay).Sublist (monthsBegun leap yearDay') := by
  have hfilter : monthsBegun leap yearDay =
      (monthsBegun leap yearDay').filter fun start => start ≤ yearDay := by
    rw [monthsBegun, monthsBegun, List.filter_filter]
    apply List.filter_congr
    intro start _
    simp only [← Bool.decide_and]
    exact decide_eq_decide.mpr ⟨fun hle => ⟨hle, hle.trans h⟩, And.left⟩
  rw [hfilter]
  exact List.filter_sublist

theorem monthsBegun_length (leap : Bool) (yearDay : ℤ) : (monthsBegun leap yearDay).length ≤ 12 := by
  refine (List.length_filter_le _ _).trans ?_
  cases leap <;> exact Nat.le_refl _

/-- The day of the month. -/
theorem dayOfMonth_bounds (leap : Bool) {yearDay : ℤ} (h : 0 ≤ yearDay) (h' : yearDay < 366) :
    0 ≤ yearDay - (monthsBegun leap yearDay).getLast?.getD 0 + 1 ∧
      yearDay - (monthsBegun leap yearDay).getLast?.getD 0 + 1 < 100 := by
  have hall : ∀ leap : Bool, ∀ y : Fin 366,
      0 ≤ (y.val : ℤ) - (monthsBegun leap y.val).getLast?.getD 0 + 1 ∧
        (y.val : ℤ) - (monthsBegun leap y.val).getLast?.getD 0 + 1 < 100 := by
    decide +kernel
  have hy := hall leap ⟨yearDay.toNat, by omega⟩
  rwa [Int.toNat_of_nonneg h] at hy

/-- Field by field, the first that differs is less. -/
def Civil.Before (c c' : Civil) : Prop :=
  c.year ≤ c'.year ∧ (c.year = c'.year → c.month ≤ c'.month ∧ (c.month = c'.month →
    c.day ≤ c'.day ∧ (c.day = c'.day → c.hour ≤ c'.hour ∧ (c.hour = c'.hour →
      c.minute ≤ c'.minute ∧ (c.minute = c'.minute → c.second ≤ c'.second ∧
        (c.second = c'.second → c.nanosecond < c'.nanosecond))))))

theorem civil_before {nano nano' : ℤ} (h : nano < nano') : (civil nano).Before (civil nano') := by
  have hday : nano / nanosPerDay ≤ nano' / nanosPerDay := Int.ediv_le_ediv (by decide) h.le
  have hinDay (heq : nano / nanosPerDay = nano' / nanosPerDay) :
      nano % nanosPerDay < nano' % nanosPerDay := by
    have hnano := Int.mul_ediv_add_emod nano nanosPerDay
    have hnano' := Int.mul_ediv_add_emod nano' nanosPerDay
    rw [heq] at hnano
    omega
  unfold Civil.Before civil
  dsimp only
  generalize nano % nanosPerDay = inDay at *
  generalize nano' % nanosPerDay = inDay' at *
  refine ⟨yearOf_mono (by omega), fun hyear => ?_⟩
  rw [← hyear]
  have hyearDay : nano / nanosPerDay + 719162 - daysBefore (yearOf (nano / nanosPerDay + 719162)) ≤
      nano' / nanosPerDay + 719162 - daysBefore (yearOf (nano / nanosPerDay + 719162)) := by omega
  have hsublist := monthsBegun_sublist (isLeap (yearOf (nano / nanosPerDay + 719162))) hyearDay
  refine ⟨hsublist.length_le, fun hmonth => ?_⟩
  rw [← hsublist.eq_of_length hmonth]
  refine ⟨by omega, fun hdayOfMonth => ?_⟩
  have := hinDay (by omega)
  refine ⟨by omega, fun _ => ⟨by omega, fun _ => ⟨by omega, fun _ => by omega⟩⟩⟩

/-- The fields fit their widths. -/
structure Civil.Fits (c : Civil) : Prop where
  month : (c.month : ℤ) < 100
  day : 0 ≤ c.day ∧ c.day < 100
  hour : 0 ≤ c.hour ∧ c.hour < 100
  minute : 0 ≤ c.minute ∧ c.minute < 100
  second : 0 ≤ c.second ∧ c.second < 100
  nanosecond : 0 ≤ c.nanosecond ∧ c.nanosecond < 1000000000

theorem civil_fits (nano : ℤ) : (civil nano).Fits := by
  have hinDay := Int.emod_nonneg nano (b := nanosPerDay) (by decide)
  have hinDay' := Int.emod_lt_of_pos nano (b := nanosPerDay) (by decide)
  have hyear := yearOf_spec (nano / nanosPerDay + 719162)
  have hsucc := daysBefore_succ (yearOf (nano / nanosPerDay + 719162))
  unfold civil nanosPerDay at *
  constructor
  · have := monthsBegun_length (isLeap (yearOf (nano / 86400000000000 + 719162)))
      (nano / 86400000000000 + 719162 - daysBefore (yearOf (nano / 86400000000000 + 719162)))
    dsimp only
    omega
  · exact dayOfMonth_bounds _ (by omega) (by omega)
  all_goals
    dsimp only
    omega

/-! ## Texts follow numbers -/

theorem digit_lt {d d' : ℕ} (h : d < d') (h' : d' < 10) : digit d < digit d' := by
  rw [digit, digit, UInt8.lt_iff_toNat_lt, UInt8.toNat_ofNat', UInt8.toNat_ofNat']
  omega

theorem digits_length (width : ℕ) : ∀ n, (digits width n).length = width := by
  induction width with
  | zero => exact fun n => rfl
  | succ width ih => exact fun n => congrArg (· + 1) (ih _)

theorem digits_lt_ten (width : ℕ) : ∀ n, ∀ d ∈ digits width n, d < 10 := by
  induction width with
  | zero => exact fun n d hd => absurd hd List.not_mem_nil
  | succ width ih =>
      intro n
      rw [digits, List.forall_mem_cons]
      exact ⟨Nat.mod_lt _ (by decide), ih _⟩

theorem digits_strictMono (width : ℕ) : ∀ {n m : ℕ}, n < m → m < 10 ^ width →
    digits width n < digits width m := by
  induction width with
  | zero =>
      intro n m h h'
      rw [pow_zero] at h'
      omega
  | succ width ih =>
      intro n m h h'
      have hpos : 0 < 10 ^ width := Nat.pow_pos (by decide)
      have hquot : m / 10 ^ width < 10 := Nat.div_lt_of_lt_mul (by rwa [← pow_succ])
      have hle : n / 10 ^ width ≤ m / 10 ^ width := Nat.div_le_div_right h.le
      rw [digits, digits, List.cons_lt_cons_iff, Nat.mod_eq_of_lt hquot,
        Nat.mod_eq_of_lt (hle.trans_lt hquot)]
      rcases hle.lt_or_eq with hlt | heq
      · exact .inl hlt
      · refine .inr ⟨heq, ih ?_ (Nat.mod_lt _ hpos)⟩
        have hn := Nat.div_add_mod n (10 ^ width)
        have hm := Nat.div_add_mod m (10 ^ width)
        rw [heq] at hn
        omega

/-- Digits of one length decide, whatever follows. -/
theorem map_digit_append_lt {rest rest' : Bytes} : ∀ {ds ds' : List ℕ}, ds.length = ds'.length →
    (∀ d ∈ ds', d < 10) → ds < ds' → ds.map digit ++ rest < ds'.map digit ++ rest' := by
  intro ds
  induction ds with
  | nil =>
      intro ds' hlen _ h
      rw [List.length_nil, eq_comm, List.length_eq_zero_iff] at hlen
      subst hlen
      exact absurd h (List.not_lt_nil _)
  | cons d ds ih =>
      intro ds' hlen hten h
      cases ds' with
      | nil => cases hlen
      | cons d' ds' =>
          obtain ⟨hd', hds'⟩ := List.forall_mem_cons.mp hten
          simp only [List.map_cons, List.cons_append, List.cons_lt_cons_iff]
          rcases List.cons_lt_cons_iff.mp h with hlt | ⟨rfl, hlt⟩
          · exact .inl (digit_lt hlt hd')
          · exact .inr ⟨rfl, ih (Nat.succ.inj hlen) hds' hlt⟩

/-- A field decides, unless it is the same. -/
theorem field_append_lt {width : ℕ} {n m : ℤ} {rest rest' : Bytes} (hn : 0 ≤ n) (hle : n ≤ m)
    (hm : m < 10 ^ width) (h : n = m → rest < rest') :
    field width n ++ rest < field width m ++ rest' := by
  rcases hle.lt_or_eq with hlt | rfl
  · have hm' : m.toNat < 10 ^ width := by
      have : (m.toNat : ℤ) < ((10 ^ width : ℕ) : ℤ) := by
        rw [Int.toNat_of_nonneg (hn.trans hle)]
        exact_mod_cast hm
      exact_mod_cast this
    apply map_digit_append_lt
    · rw [digits_length, digits_length]
    · exact digits_lt_ten _ _
    · exact digits_strictMono width (by omega) hm'
  · exact List.append_left_lt (h rfl)

/-! ### The fraction -/

theorem trim_cons {d : ℕ} {ds : List ℕ} (h : d ≠ 0 ∨ trim ds ≠ []) : trim (d :: ds) = d :: trim ds := by
  rw [trim, if_neg]
  rintro ⟨hd, hds⟩
  cases h with
  | inl hne => exact hne hd
  | inr hne => exact hne hds

/-- Something is left of what is greater than something else. -/
theorem trim_ne_nil {ds : List ℕ} : ∀ {ds' : List ℕ}, ds.length = ds'.length → ds < ds' →
    trim ds' ≠ [] := by
  induction ds with
  | nil =>
      intro ds' hlen h
      rw [List.length_nil, eq_comm, List.length_eq_zero_iff] at hlen
      subst hlen
      exact absurd h (List.not_lt_nil _)
  | cons d ds ih =>
      intro ds' hlen h
      cases ds' with
      | nil => cases hlen
      | cons d' ds' =>
          have hkept : d' ≠ 0 ∨ trim ds' ≠ [] := by
            rcases List.cons_lt_cons_iff.mp h with hlt | ⟨-, hlt⟩
            · exact .inl (Nat.ne_zero_of_lt hlt)
            · exact .inr (ih (Nat.succ.inj hlen) hlt)
          rw [trim_cons hkept]
          exact List.cons_ne_nil _ _

/-- The sign of a zone is less than a digit. -/
theorem sign_lt_digit {d : ℕ} (h : d < 10) : (43 : UInt8) < digit d := by
  rw [digit, UInt8.lt_iff_toNat_lt, UInt8.toNat_ofNat']
  show 43 < _
  omega

/-- A shorter fraction is followed by the sign of the zone. -/
theorem trim_append_lt {rest rest' : Bytes} : ∀ {ds ds' : List ℕ}, ds.length = ds'.length →
    (∀ d ∈ ds', d < 10) → ds < ds' →
      (trim ds).map digit ++ 43 :: rest < (trim ds').map digit ++ 43 :: rest' := by
  intro ds
  induction ds with
  | nil => exact fun hlen _ h => absurd (trim_ne_nil hlen h) (by
      rw [List.length_nil, eq_comm, List.length_eq_zero_iff] at hlen
      subst hlen
      exact not_not.mpr rfl)
  | cons d ds ih =>
      intro ds' hlen hten h
      cases ds' with
      | nil => cases hlen
      | cons d' ds' =>
          obtain ⟨hd', hds'⟩ := List.forall_mem_cons.mp hten
          have hkept : trim (d' :: ds') = d' :: trim ds' := by
            apply trim_cons
            rcases List.cons_lt_cons_iff.mp h with hlt | ⟨-, hlt⟩
            · exact .inl (Nat.ne_zero_of_lt hlt)
            · exact .inr (trim_ne_nil (Nat.succ.inj hlen) hlt)
          rw [hkept, trim]
          split
          case isTrue => exact List.cons_lt_cons_iff.mpr (.inl (sign_lt_digit hd'))
          case isFalse =>
            simp only [List.map_cons, List.cons_append, List.cons_lt_cons_iff]
            rcases List.cons_lt_cons_iff.mp h with hlt | ⟨rfl, hlt⟩
            · exact .inl (digit_lt hlt hd')
            · exact .inr ⟨rfl, ih (Nat.succ.inj hlen) hds' hlt⟩

theorem fraction_append_lt {n m : ℤ} {rest rest' : Bytes} (hn : 0 ≤ n) (h : n < m)
    (hm : m < 1000000000) : fraction n ++ 43 :: rest < fraction m ++ 43 :: rest' := by
  have hlt : digits 9 n.toNat < digits 9 m.toNat := digits_strictMono 9 (by omega) (by omega)
  have hlen : (digits 9 n.toNat).length = (digits 9 m.toNat).length := by
    rw [digits_length, digits_length]
  have htrim : (trim (digits 9 n.toNat)).map digit ++ 43 :: rest <
      (trim (digits 9 m.toNat)).map digit ++ 43 :: rest' :=
    trim_append_lt hlen (digits_lt_ten _ _) hlt
  have hsome := trim_ne_nil hlen hlt
  unfold fraction
  generalize trim (digits 9 m.toNat) = ds' at *
  generalize trim (digits 9 n.toNat) = ds at *
  cases ds' with
  | nil => exact absurd rfl hsome
  | cons d' ds' =>
      cases ds with
      | nil => exact List.cons_lt_cons_iff.mpr (.inl (by decide))
      | cons d ds => exact List.cons_lt_cons_iff.mpr (.inr ⟨rfl, htrim⟩)

/-! ### The whole text -/

/-- The year in UTC. -/
def yearUTC (nano : ℤ) : ℤ := (civil nano).year

/-- The text of an instant in UTC. -/
def textUTC (nano : ℤ) : Bytes := format ⟨nano, 0⟩

/-- A later instant has a greater text. -/
theorem textUTC_strictMono {nano nano' : ℤ} (h : nano < nano') (hyear : 0 ≤ yearUTC nano)
    (hyear' : yearUTC nano' ≤ 9999) : textUTC nano < textUTC nano' := by
  have hc := civil_fits nano
  have hc' := civil_fits nano'
  have hbefore := civil_before h
  unfold textUTC format
  unfold yearUTC at hyear hyear'
  simp only [zero_mul, add_zero]
  generalize civil nano = c at *
  generalize civil nano' = c' at *
  obtain ⟨hyears, hbefore⟩ := hbefore
  refine field_append_lt hyear hyears (by omega) fun heq => ?_
  obtain ⟨hmonths, hbefore⟩ := hbefore heq
  refine List.cons_lt_cons_iff.mpr (.inr ⟨rfl, ?_⟩)
  refine field_append_lt (Int.natCast_nonneg _) (by omega) hc'.month fun heq => ?_
  obtain ⟨hdays, hbefore⟩ := hbefore (by omega)
  refine List.cons_lt_cons_iff.mpr (.inr ⟨rfl, ?_⟩)
  refine field_append_lt hc.day.1 hdays hc'.day.2 fun heq => ?_
  obtain ⟨hhours, hbefore⟩ := hbefore heq
  refine List.cons_lt_cons_iff.mpr (.inr ⟨rfl, ?_⟩)
  refine field_append_lt hc.hour.1 hhours hc'.hour.2 fun heq => ?_
  obtain ⟨hminutes, hbefore⟩ := hbefore heq
  refine List.cons_lt_cons_iff.mpr (.inr ⟨rfl, ?_⟩)
  refine field_append_lt hc.minute.1 hminutes hc'.minute.2 fun heq => ?_
  obtain ⟨hseconds, hbefore⟩ := hbefore heq
  refine List.cons_lt_cons_iff.mpr (.inr ⟨rfl, ?_⟩)
  refine field_append_lt hc.second.1 hseconds hc'.second.2 fun heq => ?_
  exact fraction_append_lt hc.nanosecond.1 (hbefore heq) hc'.nanosecond.2

/-- The year in UTC has four digits. -/
def FourDigitYear (nano : ℤ) : Prop := 0 ≤ yearUTC nano ∧ yearUTC nano ≤ 9999

instance (nano : ℤ) : Decidable (FourDigitYear nano) := inferInstanceAs (Decidable (_ ∧ _))

theorem textUTC_lt_iff {nano nano' : ℤ} (h : FourDigitYear nano) (h' : FourDigitYear nano') :
    textUTC nano < textUTC nano' ↔ nano < nano' := by
  refine ⟨fun hlt => ?_, fun hlt => textUTC_strictMono hlt h.1 h'.2⟩
  by_contra hge
  rcases (not_lt.mp hge).lt_or_eq with hgt | rfl
  · exact List.lt_asymm hlt (textUTC_strictMono hgt h'.1 h.2)
  · exact List.lt_irrefl _ hlt

theorem textUTC_inj {nano nano' : ℤ} (h : FourDigitYear nano) (h' : FourDigitYear nano') :
    textUTC nano = textUTC nano' ↔ nano = nano' := by
  refine ⟨fun heq => ?_, congrArg _⟩
  apply le_antisymm
  · apply not_lt.mp
    rw [← textUTC_lt_iff h' h, heq]
    exact List.lt_irrefl _
  · apply not_lt.mp
    rw [← textUTC_lt_iff h h', heq]
    exact List.lt_irrefl _

end GoTime
end Go42
