-- SUMMARY: The text of a metric: it depends on the name and the merged labels only, and it tells any two of them apart.
import Go42.Lib.Codes
import Mathlib.Data.Finmap

/-!
# Metrics

A metric is known by a text: its name, and its labels in braces. The labels of a call
are merged with the global ones, sorted by key, and their values escaped, so that two
calls share a time series exactly when they mean the same one.
-/

namespace Go42.Metrics

open Codes

/-- `map[string]any`. -/
abbrev Labels (V : Type) := Finmap fun _ : Bytes => V

/-- The keys of a map in the order in which one `range` loop meets them. -/
structure RangeOrder {V : Type} (m : Labels V) where
  keys : List Bytes
  nodup : keys.Nodup
  mem_keys : ∀ k, k ∈ keys ↔ (m.lookup k).isSome = true

variable {V : Type} {labels globalLabels : Labels V}

/-! ## Values -/

def backslash : UInt8 := 0x5c
def quote : UInt8 := 0x22
def newline : UInt8 := 0x0a

/-- `strings.NewReplacer` of single bytes. -/
abbrev Replacer := List (UInt8 × Bytes)

def Replacer.replaceByte (r : Replacer) (b : UInt8) : Bytes := (r.lookup b).getD [b]

def Replacer.replace (r : Replacer) (s : Bytes) : Bytes := s.flatMap r.replaceByte

def labelEscaper : Replacer :=
  [(backslash, [backslash, backslash]), (quote, [backslash, quote]), (newline, [backslash, 0x6e])]

variable (sprintf : V → Bytes)

/-- `sprintf` is `fmt.Sprintf("%v", value)`. -/
def escapeLabelValue (value : V) : Bytes := labelEscaper.replace (sprintf value)

/-- The byte that a backslash stands before. -/
def escapeCode (b : UInt8) : Option UInt8 :=
  if b = backslash then some backslash
  else if b = quote then some quote
  else if b = newline then some 0x6e
  else none

theorem replaceByte_eq (b : UInt8) : labelEscaper.replaceByte b = escapeLetter backslash escapeCode b := by
  unfold escapeLetter escapeCode Replacer.replaceByte labelEscaper
  simp only [List.lookup_cons, List.lookup_nil]
  by_cases hbackslash : b = backslash
  · rw [hbackslash]
    rfl
  · by_cases hquote : b = quote
    · rw [hquote]
      rfl
    · by_cases hnewline : b = newline
      · rw [hnewline]
        rfl
      · simp [hbackslash, hquote, hnewline, beq_false_of_ne]

theorem escapeCode_inj (a b d : UInt8) (ha : escapeCode a = some d) (hb : escapeCode b = some d) : a = b := by
  unfold escapeCode at ha hb
  grind [backslash, quote, newline]

/-- A value and the quote that closes it. -/
theorem value_selfDelimiting :
    SelfDelimiting (fun _ => True) fun value : Bytes => labelEscaper.replace value ++ [quote] := by
  have hletter : labelEscaper.replaceByte = escapeLetter backslash escapeCode := funext replaceByte_eq
  unfold Replacer.replace
  rw [hletter]
  exact (SelfDelimiting.escapeLetter rfl escapeCode_inj).escaped
    (escapeLetter_head rfl (by decide))

/-! ## Labels -/

/-- The orders in which the three loops over the maps meet their keys. -/
structure RangeOrders (labels globalLabels : Labels V) where
  counting : RangeOrder globalLabels
  collecting : RangeOrder labels
  adding : RangeOrder globalLabels

/-- `_, exists := labels[k]; !exists`. -/
def missing (labels : Labels V) (k : Bytes) : Bool := (labels.lookup k).isNone

/-- The labels of a call override global ones. -/
def merged (labels globalLabels : Labels V) (k : Bytes) : Option V :=
  (labels.lookup k).or (globalLabels.lookup k)

theorem RangeOrder.length_keys {m : Labels V} (o : RangeOrder m) : o.keys.length = m.keys.card := by
  have hkeys : o.keys.toFinset = m.keys := by
    ext k
    rw [List.mem_toFinset, o.mem_keys, Finmap.mem_keys, Finmap.lookup_isSome]
  rw [← hkeys, List.toFinset_card_of_nodup o.nodup]

theorem RangeOrder.keys_eq_nil {m : Labels V} (o : RangeOrder m) (hempty : ¬ m.keys.card > 0) : o.keys = [] := by
  rw [← List.length_eq_zero_iff, o.length_keys]
  exact Nat.eq_zero_of_not_pos hempty

namespace RangeOrders

variable (orders : RangeOrders labels globalLabels)

/-- The keys of the merged map. -/
def keys : List Bytes := orders.collecting.keys ++ orders.adding.keys.filter (missing labels)

theorem mem_keys {k : Bytes} : k ∈ orders.keys ↔ (merged labels globalLabels k).isSome = true := by
  rw [keys, List.mem_append, List.mem_filter, orders.collecting.mem_keys, orders.adding.mem_keys, merged, missing]
  cases labels.lookup k <;> simp

theorem nodup_keys : orders.keys.Nodup := by
  refine List.nodup_append'.mpr ⟨orders.collecting.nodup, orders.adding.nodup.filter _, fun k hk hk' => ?_⟩
  have hsome := (orders.collecting.mem_keys k).mp hk
  have hnone := (List.mem_filter.mp hk').2
  rw [missing, Option.isNone_iff_eq_none] at hnone
  rw [hnone] at hsome
  cases hsome

/-- The count of the first loop is the number of keys that the other two collect. -/
theorem totalLabels_eq :
    labels.keys.card +
      (if globalLabels.keys.card > 0 then orders.counting.keys.countP (missing labels) else 0) =
        orders.keys.length := by
  have hperm : orders.counting.keys.Perm orders.adding.keys := by
    refine (List.perm_ext_iff_of_nodup orders.counting.nodup orders.adding.nodup).mpr fun k => ?_
    rw [orders.counting.mem_keys, orders.adding.mem_keys]
  have hadded : orders.counting.keys.countP (missing labels) =
      (orders.adding.keys.filter (missing labels)).length := by
    rw [hperm.countP_eq, List.countP_eq_length_filter]
  rw [keys, List.length_append, orders.collecting.length_keys, hadded]
  split
  case isTrue => rfl
  case isFalse hempty =>
    simp [orders.adding.keys_eq_nil hempty]

end RangeOrders

/-! ## Metrics -/

def openBrace : UInt8 := 0x7b
def closeBrace : UInt8 := 0x7d
def comma : UInt8 := 0x2c
def equals : UInt8 := 0x3d

/-- `sort.Strings`. -/
def sortStrings (keys : List Bytes) : List Bytes := keys.mergeSort fun a b => decide (a ≤ b)

theorem sortStrings_eq {l l' : List Bytes} (h : l.Perm l') : sortStrings l = sortStrings l' := by
  have hsorted (l : List Bytes) : (sortStrings l).Pairwise (· ≤ ·) := by
    refine (List.pairwise_mergeSort (fun a b c hab hbc => ?_) (fun a b => ?_) l).imp of_decide_eq_true
    · exact decide_eq_true (List.le_trans (of_decide_eq_true hab) (of_decide_eq_true hbc))
    · rw [Bool.or_eq_true, decide_eq_true_eq, decide_eq_true_eq]
      exact List.le_total a b
  refine List.Perm.eq_of_pairwise (fun a b _ _ => List.le_antisymm) (hsorted l) (hsorted l') ?_
  exact (List.mergeSort_perm l _).trans (h.trans (List.mergeSort_perm l' _).symm)

variable [Inhabited V]

/-- The value of a key, local or global. -/
def labelValue (labels globalLabels : Labels V) (k : Bytes) : V :=
  match labels.lookup k with
  | some val => val
  | none => (globalLabels.lookup k).getD default

/-- Round `i` of the loop that writes the labels. -/
def writeLabel (labels globalLabels : Labels V) (k : Bytes) (i : ℕ) : Bytes :=
  (if i > 0 then [comma] else []) ++ k ++ [equals, quote] ++
    escapeLabelValue sprintf (labelValue labels globalLabels k) ++ [quote]

def constructMetric (name : Bytes) (labels globalLabels : Labels V) (orders : RangeOrders labels globalLabels) :
    Bytes :=
  if labels.keys.card = 0 ∧ globalLabels.keys.card = 0 then name
  else
    let globalLabelsCount := globalLabels.keys.card
    let totalLabels := labels.keys.card +
      (if globalLabelsCount > 0 then orders.counting.keys.countP (missing labels) else 0)
    if totalLabels = 0 then name
    else
      let keys := sortStrings (orders.collecting.keys ++
        (if globalLabelsCount > 0 then orders.adding.keys.filter (missing labels) else []))
      name ++ [openBrace] ++ (keys.zipIdx.flatMap fun e => writeLabel sprintf labels globalLabels e.1 e.2) ++
        [closeBrace]

/-! ## What the text says -/

theorem labelValue_of_merged {k : Bytes} {v : V} (h : merged labels globalLabels k = some v) :
    labelValue labels globalLabels k = v := by
  unfold merged at h
  unfold labelValue
  cases hlocal : labels.lookup k with
  | some val =>
      rw [hlocal] at h
      exact Option.some.inj h
  | none =>
      rw [hlocal] at h
      rw [show globalLabels.lookup k = some v from h]
      rfl

/-- A label as it is written. -/
def label (entry : Bytes × Bytes) : Bytes :=
  (entry.1 ++ [equals]) ++ ([quote] ++ (labelEscaper.replace entry.2 ++ [quote]))

/-- The sorted keys of the merged map with their rendered values. -/
def entries (orders : RangeOrders labels globalLabels) : List (Bytes × Bytes) :=
  (sortStrings orders.keys).map fun k => (k, sprintf (labelValue labels globalLabels k))

def text (name : Bytes) (entries : List (Bytes × Bytes)) : Bytes :=
  if entries = [] then name
  else name ++ openBrace :: ([comma].intercalate (entries.map label) ++ [closeBrace])

theorem writeLabels_eq (keys : List Bytes) :
    (keys.zipIdx.flatMap fun e => writeLabel sprintf labels globalLabels e.1 e.2) =
      [comma].intercalate ((keys.map fun k => (k, sprintf (labelValue labels globalLabels k))).map label) := by
  have hlabel (k : Bytes) (i : ℕ) : writeLabel sprintf labels globalLabels k i =
      (if i > 0 then [comma] else []) ++ label (k, sprintf (labelValue labels globalLabels k)) := by
    simp [writeLabel, label, escapeLabelValue]
  -- After the first label every round writes the comma first.
  have hrest (keys : List Bytes) (n : ℕ) :
      ((keys.zipIdx (n + 1)).flatMap fun e => writeLabel sprintf labels globalLabels e.1 e.2) =
        keys.flatMap fun k => [comma] ++ label (k, sprintf (labelValue labels globalLabels k)) := by
    induction keys generalizing n with
    | nil => rfl
    | cons k keys ih =>
        rw [List.zipIdx_cons, List.flatMap_cons, ih, hlabel]
        simp
  have hjoin (x : Bytes) (xs : List Bytes) :
      [comma].intercalate (x :: xs) = x ++ xs.flatMap ([comma] ++ ·) := by
    induction xs generalizing x with
    | nil => simp
    | cons y ys ih => rw [intercalate_cons_cons, ih, List.flatMap_cons, List.append_assoc]
  cases keys with
  | nil => rfl
  | cons k keys =>
      rw [List.zipIdx_cons, List.flatMap_cons, hrest, hlabel, List.map_cons, List.map_cons, hjoin,
        List.map_map, List.flatMap_map]
      rfl

theorem constructMetric_eq (name : Bytes) (orders : RangeOrders labels globalLabels) :
    constructMetric sprintf name labels globalLabels orders = text name (entries sprintf orders) := by
  have htotal := orders.totalLabels_eq
  have hnil : entries sprintf orders = [] ↔ orders.keys.length = 0 := by
    rw [entries, List.map_eq_nil_iff, ← List.length_eq_zero_iff, sortStrings, List.length_mergeSort]
  have hadding : (if globalLabels.keys.card > 0 then orders.adding.keys.filter (missing labels) else []) =
      orders.adding.keys.filter (missing labels) := by
    split
    case isTrue => rfl
    case isFalse hempty => rw [orders.adding.keys_eq_nil hempty, List.filter_nil]
  unfold constructMetric text
  dsimp only
  rw [htotal, hadding]
  split
  case isTrue hempty =>
    have hlength : orders.keys.length = 0 := by
      rw [← htotal, hempty.1, hempty.2]
      rfl
    rw [if_pos (hnil.mpr hlength)]
  case isFalse =>
    split
    case isTrue hlength => rw [if_pos (hnil.mpr hlength)]
    case isFalse hlength =>
      rw [if_neg (mt hnil.mp hlength), writeLabels_eq]
      simp [entries, RangeOrders.keys]

/-! ## Telling metrics apart -/

def identifierStart (b : UInt8) : Bool :=
  (0x41 ≤ b && b ≤ 0x5a) || (0x61 ≤ b && b ≤ 0x7a) || b == 0x5f

/-- `[A-Za-z_][A-Za-z0-9_]*`. -/
def identifier : Bytes → Bool
  | [] => false
  | b :: bs => identifierStart b && bs.all fun c => identifierStart c || (0x30 ≤ c && c ≤ 0x39)

theorem equals_not_mem {k : Bytes} (h : identifier k = true) : equals ∉ k := by
  cases k with
  | nil => exact List.not_mem_nil
  | cons b bs =>
      simp only [identifier, Bool.and_eq_true, List.all_eq_true] at h
      intro hmem
      rcases List.mem_cons.mp hmem with rfl | hmem
      · exact absurd h.1 (by decide)
      · exact absurd (h.2 _ hmem) (by decide)

theorem label_selfDelimiting : SelfDelimiting (fun e => identifier e.1 = true ∧ True) label := by
  have hkey : SelfDelimiting (fun k => identifier k = true) fun k : Bytes => k ++ [equals] :=
    SelfDelimiting.terminated (fun a b h => h) fun k hk => equals_not_mem hk
  exact hkey.prod (value_selfDelimiting.prefixed [quote])

theorem text_inj {n₁ n₂ : Bytes} {es₁ es₂ : List (Bytes × Bytes)} (hn₁ : openBrace ∉ n₁)
    (hn₂ : openBrace ∉ n₂) (hes₁ : ∀ e ∈ es₁, identifier e.1 = true) (hes₂ : ∀ e ∈ es₂, identifier e.1 = true)
    (h : text n₁ es₁ = text n₂ es₂) : n₁ = n₂ ∧ es₁ = es₂ := by
  unfold text at h
  split at h
  case isTrue hnil₁ =>
    split at h
    case isTrue hnil₂ => exact ⟨h, hnil₁.trans hnil₂.symm⟩
    case isFalse => exact absurd (h ▸ List.mem_append_right _ List.mem_cons_self) hn₁
  case isFalse hne₁ =>
    split at h
    case isTrue => exact absurd (h ▸ List.mem_append_right _ List.mem_cons_self) hn₂
    case isFalse hne₂ =>
      -- The first brace ends the name.
      obtain ⟨rfl, hbody⟩ := (SelfDelimiting.terminated (p := fun n : Bytes => openBrace ∉ n)
        (f := fun n => n) (fun a b h => h) fun n hn => hn) hn₁ hn₂
        (r := [comma].intercalate (es₁.map label) ++ [closeBrace])
        (s := [comma].intercalate (es₂.map label) ++ [closeBrace]) (by simpa using h)
      have hlist : SelfDelimiting (fun es => es ≠ [] ∧ ∀ e ∈ es, identifier e.1 = true ∧ True)
          fun es => [comma].intercalate (es.map label) ++ [closeBrace] :=
        label_selfDelimiting.separated (by decide)
      exact ⟨rfl, hlist.eq ⟨hne₁, fun e he => ⟨hes₁ e he, trivial⟩⟩ ⟨hne₂, fun e he => ⟨hes₂ e he, trivial⟩⟩ hbody⟩

section Calls

variable {l₁ g₁ l₂ g₂ : Labels V} {n₁ n₂ : Bytes}

theorem mem_entries {orders : RangeOrders labels globalLabels} {e : Bytes × Bytes} :
    e ∈ entries sprintf orders ↔ (merged labels globalLabels e.1).map sprintf = some e.2 := by
  have hsort (k : Bytes) : k ∈ sortStrings orders.keys ↔ (merged labels globalLabels k).isSome = true := by
    rw [← orders.mem_keys]
    exact (List.mergeSort_perm _ _).mem_iff
  rw [entries, List.mem_map]
  constructor
  case mp =>
    rintro ⟨k, hk, rfl⟩
    obtain ⟨v, hv⟩ := Option.isSome_iff_exists.mp ((hsort k).mp hk)
    rw [hv, labelValue_of_merged hv]
    rfl
  case mpr =>
    intro h
    obtain ⟨v, hv, he⟩ := Option.map_eq_some_iff.mp h
    refine ⟨e.1, (hsort e.1).mpr (hv ▸ rfl), ?_⟩
    rw [labelValue_of_merged hv, he]

/-- Neither the order of iteration nor the way the labels are split between the call and the global
ones matters. -/
theorem entries_congr (o₁ : RangeOrders l₁ g₁) (o₂ : RangeOrders l₂ g₂)
    (h : ∀ k, (merged l₁ g₁ k).map sprintf = (merged l₂ g₂ k).map sprintf) :
    entries sprintf o₁ = entries sprintf o₂ := by
  have hkeys : sortStrings o₁.keys = sortStrings o₂.keys := by
    refine sortStrings_eq ((List.perm_ext_iff_of_nodup o₁.nodup_keys o₂.nodup_keys).mpr fun k => ?_)
    have hsome := congrArg Option.isSome (h k)
    rw [Option.isSome_map, Option.isSome_map] at hsome
    rw [o₁.mem_keys, o₂.mem_keys, hsome]
  unfold entries
  rw [← hkeys]
  refine List.map_inj_left.mpr fun k hk => ?_
  have hmem : k ∈ o₁.keys := (List.mergeSort_perm _ _).mem_iff.mp hk
  obtain ⟨v₁, hv₁⟩ := Option.isSome_iff_exists.mp (o₁.mem_keys.mp hmem)
  have hk := h k
  rw [hv₁] at hk
  obtain ⟨v₂, hv₂, hvalue⟩ := Option.map_eq_some_iff.mp hk.symm
  rw [labelValue_of_merged hv₁, labelValue_of_merged hv₂, hvalue]

/-- Two calls give one text exactly when they mean one metric. -/
theorem constructMetric_inj (o₁ : RangeOrders l₁ g₁) (o₂ : RangeOrders l₂ g₂) (hn₁ : openBrace ∉ n₁)
    (hn₂ : openBrace ∉ n₂) (hk₁ : ∀ k, (merged l₁ g₁ k).isSome = true → identifier k = true)
    (hk₂ : ∀ k, (merged l₂ g₂ k).isSome = true → identifier k = true) :
    constructMetric sprintf n₁ l₁ g₁ o₁ = constructMetric sprintf n₂ l₂ g₂ o₂ ↔
      n₁ = n₂ ∧ ∀ k, (merged l₁ g₁ k).map sprintf = (merged l₂ g₂ k).map sprintf := by
  rw [constructMetric_eq, constructMetric_eq]
  constructor
  case mpr =>
    rintro ⟨rfl, h⟩
    rw [entries_congr sprintf o₁ o₂ h]
  case mp =>
    intro h
    have hkey {l g : Labels V} {o : RangeOrders l g}
        (hk : ∀ k, (merged l g k).isSome = true → identifier k = true) :
        ∀ e ∈ entries sprintf o, identifier e.1 = true := by
      intro e he
      obtain ⟨v, hv, -⟩ := Option.map_eq_some_iff.mp ((mem_entries sprintf).mp he)
      exact hk e.1 (hv ▸ rfl)
    obtain ⟨hname, hentries⟩ := text_inj hn₁ hn₂ (hkey hk₁) (hkey hk₂) h
    refine ⟨hname, fun k => Option.ext fun v => ?_⟩
    have hmem : (k, v) ∈ entries sprintf o₁ ↔ (merged l₁ g₁ k).map sprintf = some v := mem_entries sprintf
    rw [hentries, mem_entries] at hmem
    exact hmem.symm

end Calls

/-! ## A gauge -/

/-- A map with one label, met by every loop. -/
def oneLabel (k v : Bytes) : Labels Bytes := Finmap.singleton k v

def RangeOrder.one (k v : Bytes) : RangeOrder (oneLabel k v) where
  keys := [k]
  nodup := List.nodup_singleton k
  mem_keys k' := by
    rw [Finmap.lookup_isSome, oneLabel, Finmap.mem_singleton, List.mem_singleton]

def RangeOrders.one (k v k' v' : Bytes) : RangeOrders (oneLabel k v) (oneLabel k' v') :=
  ⟨.one k' v', .one k v, .one k' v'⟩

/-- `m{a="\""}` with a global `a`, and `m{a="\\"}` without the quote. -/
theorem constructMetric_inj_one :
    constructMetric id [0x6d] (oneLabel [0x61] [quote]) (oneLabel [0x61] []) (.one ..) ≠
      constructMetric id [0x6d] (oneLabel [0x61] [backslash]) (oneLabel [0x61] []) (.one ..) := by
  have hkey (v : Bytes) (k : Bytes) (h : (merged (oneLabel [0x61] v) (oneLabel [0x61] []) k).isSome = true) :
      identifier k = true := by
    rw [merged, Option.isSome_or, Bool.or_eq_true, oneLabel, oneLabel, Finmap.lookup_isSome,
      Finmap.lookup_isSome, Finmap.mem_singleton, Finmap.mem_singleton, or_self] at h
    rw [h]
    rfl
  intro h
  have hsame := ((constructMetric_inj id _ _ (by decide) (by decide) (hkey _) (hkey _)).mp h).2 [0x61]
  revert hsame
  decide

end Go42.Metrics
