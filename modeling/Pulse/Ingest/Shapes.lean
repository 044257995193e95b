/-
  Pulse.Ingest.Shapes
  ───────────────────
  **SHORT KEYS AND LONG KEYS.**

  A field under its short key is tested for truth, so that a price of zero counts as
  missing; under its long key it is the last of the choice and only tested for `None`.
  A volume is tested for truth twice in either shape.  A number with a fraction or an
  exponent passes through a double, which may show another number or none.

    • `withLongKeys`      — the same payload in the other shape,
    • `ParsedAlike`       — what both shapes should give,
    • `parsed_alike_iff`  — when they do.
-/
import Pulse.Ingest.Fields
import Pulse.Ingest.Reply

namespace Pulse.Ingest

/-! ## §1. The two shapes. -/

def shortKeys : List String := ["t", "o", "h", "l", "c", "v"]

def longKeys : List String := ["time", "timestamp", "open", "high", "low", "close", "volume"]

/-- The long key for a short one. -/
def longKey : String → String
  | "t" => "time"
  | "o" => "open"
  | "h" => "high"
  | "l" => "low"
  | "c" => "close"
  | "v" => "volume"
  | key => key

/-- A payload in the other shape. -/
def withLongKeys (data : Payload) : Payload := data.map fun e => (longKey e.1, e.2)

/-- A payload with short keys, and whatever else the exchange sends. -/
def ShortKeyed (data : Payload) : Prop := ∀ e ∈ data, e.1 ∉ longKeys

/-- The payload's values. -/
def shortFields (data : Payload) : Fields where
  timestamp := Json.get data "t"
  openPrice := Json.get data "o"
  high := Json.get data "h"
  low := Json.get data "l"
  close := Json.get data "c"
  volume := Json.get data "v"

theorem get_absent {data : Payload} {key : String} (h : ∀ e ∈ data, e.1 ≠ key) :
    Json.get data key = .null := by
  unfold Json.get
  rw [List.find?_eq_none.mpr fun e he => by simpa using h e he]

/-- Keys may be renamed, one by one. -/
theorem get_renamed {data : Payload} {rename : String → String} {key key' : String}
    (h : ∀ e ∈ data, rename e.1 = key' ↔ e.1 = key) :
    Json.get (data.map fun e => (rename e.1, e.2)) key' = Json.get data key := by
  induction data with
  | nil => rfl
  | cons e data ih =>
      have hrest := ih fun e' he' => h e' (List.mem_cons_of_mem _ he')
      unfold Json.get at hrest ⊢
      rw [List.map_cons, List.find?_cons, List.find?_cons]
      by_cases hkey : e.1 = key
      · have hsame : rename e.1 = key' := (h e List.mem_cons_self).mpr hkey
        rw [decide_eq_true hkey, decide_eq_true hsame]
      · have hother : rename e.1 ≠ key' := fun heq => hkey ((h e List.mem_cons_self).mp heq)
        simp only [hkey, hother, decide_false]
        exact hrest

theorem longKey_mem : ∀ short ∈ shortKeys, longKey short ∈ longKeys := by decide

theorem longKey_inj : ∀ key ∈ shortKeys, ∀ short ∈ shortKeys,
    longKey key = longKey short → key = short := by decide

theorem longKey_cases (key : String) :
    key ∈ shortKeys ∧ longKey key ∈ longKeys ∨ key ∉ shortKeys ∧ longKey key = key := by
  by_cases h : key ∈ shortKeys
  · exact Or.inl ⟨h, longKey_mem key h⟩
  · refine Or.inr ⟨h, ?_⟩
    unfold longKey
    split
    case h_7 => rfl
    all_goals exact absurd (by decide) h

theorem longKey_eq_iff {key short : String} (hshort : short ∈ shortKeys) (hkey : key ∉ longKeys) :
    longKey key = longKey short ↔ key = short := by
  constructor
  · intro h
    rcases longKey_cases key with ⟨hin, -⟩ | ⟨-, hsame⟩
    · exact longKey_inj key hin short hshort h
    · rw [hsame] at h
      exact absurd (h ▸ longKey_mem short hshort) hkey
  · rintro rfl
    rfl

theorem longKey_not_short (key : String) : longKey key ∉ shortKeys := by
  rcases longKey_cases key with ⟨-, hlong⟩ | ⟨hout, hsame⟩
  · have hdisjoint : ∀ k ∈ longKeys, k ∉ shortKeys := by decide
    exact hdisjoint _ hlong
  · rw [hsame]
    exact hout

section Payload

variable {data : Payload} (h : ShortKeyed data)

include h

theorem get_withLongKeys (short : String) (hshort : short ∈ shortKeys) :
    Json.get (withLongKeys data) (longKey short) = Json.get data short :=
  get_renamed fun e he => longKey_eq_iff hshort (h e he)

theorem get_long (key : String) (hkey : key ∈ longKeys) : Json.get data key = .null :=
  get_absent fun e he heq => h e he (heq ▸ hkey)

theorem get_timestamp_withLongKeys : Json.get (withLongKeys data) "timestamp" = .null := by
  refine get_absent fun e he heq => ?_
  obtain ⟨e', he', rfl⟩ := List.mem_map.mp he
  rcases longKey_cases e'.1 with ⟨hin, -⟩ | ⟨-, hsame⟩
  · have hother : ∀ short ∈ shortKeys, longKey short ≠ "timestamp" := by decide
    exact hother _ hin heq
  · have heq : longKey e'.1 = "timestamp" := heq
    rw [hsame] at heq
    exact h e' he' (heq ▸ by decide)

end Payload

theorem get_short_withLongKeys (data : Payload) {short : String} (hshort : short ∈ shortKeys) :
    Json.get (withLongKeys data) short = .null := by
  refine get_absent fun e he heq => ?_
  obtain ⟨e', -, rfl⟩ := List.mem_map.mp he
  have heq : longKey e'.1 = short := heq
  exact longKey_not_short e'.1 (heq ▸ hshort)

/-! ## §2. What the parser chooses. -/

theorem or_null_or (x y : Json) : (x.or .null).or y = x.or y := by
  unfold Json.or
  by_cases h : x.truthy = true
  · simp only [h, if_true]
  · simp only [h, Bool.false_eq_true, if_false]
    rfl

/-- Short keys: every value is tested for truth. -/
theorem chosen_short {data : Payload} (h : ShortKeyed data) : chosen data =
    { timestamp := (shortFields data).timestamp.or .null
      openPrice := (shortFields data).openPrice.or .null
      high := (shortFields data).high.or .null
      low := (shortFields data).low.or .null
      close := (shortFields data).close.or .null
      volume := (shortFields data).volume.or (.int 0) } := by
  unfold chosen getTimestampMs
  rw [get_long h "time" (by decide), get_long h "timestamp" (by decide),
    get_long h "open" (by decide), get_long h "high" (by decide),
    get_long h "low" (by decide), get_long h "close" (by decide),
    get_long h "volume" (by decide), or_null_or, or_null_or]
  rfl

/-- Long keys: prices are not. -/
theorem chosen_long {data : Payload} (h : ShortKeyed data) : chosen (withLongKeys data) =
    { shortFields data with
      timestamp := (shortFields data).timestamp.or .null
      volume := (shortFields data).volume.or (.int 0) } := by
  have htime : Json.get (withLongKeys data) "time" = Json.get data "t" :=
    get_withLongKeys h "t" (by decide)
  have hopen : Json.get (withLongKeys data) "open" = Json.get data "o" :=
    get_withLongKeys h "o" (by decide)
  have hhigh : Json.get (withLongKeys data) "high" = Json.get data "h" :=
    get_withLongKeys h "h" (by decide)
  have hlow : Json.get (withLongKeys data) "low" = Json.get data "l" :=
    get_withLongKeys h "l" (by decide)
  have hclose : Json.get (withLongKeys data) "close" = Json.get data "c" :=
    get_withLongKeys h "c" (by decide)
  have hvolume : Json.get (withLongKeys data) "volume" = Json.get data "v" :=
    get_withLongKeys h "v" (by decide)
  have hshort : ∀ short ∈ shortKeys, Json.get (withLongKeys data) short = .null :=
    fun short hshort => get_short_withLongKeys data hshort
  unfold chosen getTimestampMs
  rw [hshort "t" (by decide), hshort "o" (by decide), hshort "h" (by decide),
    hshort "l" (by decide), hshort "c" (by decide), hshort "v" (by decide),
    get_timestamp_withLongKeys h, htime, hopen, hhigh, hlow, hclose, hvolume]
  rfl

/-! ## §3. What the shapes give. -/

/-- The number that a value denotes, as it is written. -/
def numberOf : Json → Option Dec
  | .int i => some (.fin i)
  | .num q => some (.fin q)
  | .str s => decOfStr s
  | .null | .bool _ | .arr _ | .obj _ => none

/-- `c` has the payload's numbers. -/
structure Transcribed (f : Fields) (c : Candle) : Prop where
  openPrice : numberOf f.openPrice = some c.openPrice
  high : numberOf f.high = some c.high
  low : numberOf f.low = some c.low
  close : numberOf f.close = some c.close
  volume : c.volume = numberOf f.volume

/-- **What both shapes should give**: nothing, or the same candle with the payload's numbers. -/
def ParsedAlike (symbol : String) (n : Nat) (data : Payload) : Prop :=
  (candleFromDict symbol data n = .ok none ∧
    candleFromDict symbol (withLongKeys data) n = .ok none) ∨
  ∃ c, candleFromDict symbol data n = .ok (some c) ∧
    candleFromDict symbol (withLongKeys data) n = .ok (some c) ∧ Transcribed (shortFields data) c

/-- The value converts to the number that is written. -/
def AsWritten (x : Json) : Prop := ∃ d, x.toDec = .ok d ∧ numberOf x = some d

/-- The volume converts to the number that is written, other than zero, or it denotes no number
and is not true. -/
def VolumeKept (v : Json) : Prop :=
  match numberOf v with
  | some d => v.toDec = .ok d ∧ d.truthy = true
  | none => v.truthy = false

/-- The payload has no timestamp or one that is refused, or a price is `null`, or the first value
that is no number is an integer too long, or all values are read as they stand. -/
def ReadAsGiven (f : Fields) : Prop :=
  f.timestamp.truthy = false ∨ Caught (timestampOf f.timestamp) ∨
  (∃ p ∈ f.prices, p.isNone = true) ∨
  ((∃ t, timestampOf f.timestamp = .ok t) ∧
    (TooLongFirst (f.prices ++ [f.volume]) ∨
      (∀ p ∈ f.prices, p.truthy = true ∧ AsWritten p) ∧ VolumeKept f.volume))

/-- A number that converts is a number that is written. -/
theorem numberOf_of_toDec {x : Json} {d : Dec} (h : x.toDec = .ok d) :
    ∃ d', numberOf x = some d' := by
  cases x with
  | int i => exact ⟨_, rfl⟩
  | num q => exact ⟨_, rfl⟩
  | str s =>
      simp only [Json.toDec] at h
      cases hs : decOfStr s with
      | some d => exact ⟨d, hs⟩
      | none =>
          rw [hs] at h
          exact absurd h (by simp)
  | null | bool b | arr items | obj entries => exact absurd h (by simp [Json.toDec])

/-- The volume comes out as it is given, unless it is zero or another number. -/
theorem volumeKept_iff (v : Json) :
    (v.or (.int 0)).toDec.map keptVolume = .ok (numberOf v) ↔ VolumeKept v := by
  unfold VolumeKept
  cases htruthy : v.truthy with
  | true =>
      -- read as it stands, and dropped if the number is zero (`"0"`)
      have hself : v.or (.int 0) = v := if_pos htruthy
      rw [hself]
      cases hdec : v.toDec with
      | error e => cases numberOf v <;> simp [Except.map]
      | ok d =>
          obtain ⟨d', hd'⟩ := numberOf_of_toDec hdec
          rw [hd']
          show Except.ok (keptVolume d) = .ok (some d') ↔ Except.ok d = .ok d' ∧ d'.truthy = true
          rw [Except.ok.injEq, Except.ok.injEq, keptVolume]
          split
          next hd =>
            rw [Option.some.injEq]
            exact ⟨fun h => ⟨h, h ▸ hd⟩, fun h => h.1⟩
          next hd =>
            refine iff_of_false (by simp) ?_
            rintro ⟨rfl, htrue⟩
            exact hd htrue
  | false =>
      -- replaced by 0, which is dropped
      have hzero : v.or (.int 0) = .int 0 := if_neg (by simp [htruthy])
      have hnone : (Json.int 0).toDec.map keptVolume = .ok none := rfl
      rw [hzero, hnone]
      cases hnumber : numberOf v with
      | none => simp
      | some d =>
          refine iff_of_false (by simp) ?_
          rintro ⟨hdec, hd⟩
          obtain rfl := toDec_of_falsy htruthy hdec
          exact absurd hd (by simp [Dec.truthy])

theorem tooLong_of_falsy {x : Json} (hx : x.truthy = false) : x.tooLong = false := by
  cases x with
  | null | bool b | num q | str s => simp [Json.tooLong]
  | int i =>
      obtain rfl : i = 0 := by simpa [Json.truthy] using hx
      rfl
  | arr items =>
      obtain rfl : items = [] := by simpa [Json.truthy] using hx
      rfl
  | obj entries =>
      obtain rfl : entries = [] := by simpa [Json.truthy] using hx
      rfl

/-- A volume that gives way to 0 is not too long. -/
theorem tooLongFirst_or (prices : List Json) (v : Json) :
    TooLongFirst (prices ++ [v.or (.int 0)]) ↔ TooLongFirst (prices ++ [v]) := by
  induction prices with
  | nil =>
      show (_ ∨ _ ∧ False) ↔ (_ ∨ _ ∧ False)
      rw [and_false, or_false, and_false, or_false]
      unfold Json.or
      split
      next => rfl
      next h =>
        have hv := tooLong_of_falsy (Bool.eq_false_iff.mpr h)
        exact iff_of_false (by decide) (by simp [hv])
  | cons p prices ih => exact or_congr Iff.rfl (and_congr Iff.rfl ih)

theorem or_null_of_truthy {x : Json} (hx : x.truthy = true) : x.or .null = x := if_pos hx

theorem or_null_of_falsy {x : Json} (hx : x.truthy = false) : x.or .null = .null :=
  if_neg (by simp [hx])

section Parser

variable {symbol : String} {n : Nat} {data : Payload}

/-- A payload without a timestamp is refused. -/
theorem candleFromDict_no_timestamp (h : (chosen data).timestamp = .null) :
    candleFromDict symbol data n = .ok none := by
  rw [candleFromDict_eq, h]
  rfl

/-- So is one without a price. -/
theorem candleFromDict_no_price (h : ∃ p ∈ (chosen data).prices, p.isNone = true) :
    candleFromDict symbol data n = .ok none := by
  rw [candleFromDict_eq, if_pos (List.any_eq_true.mpr h)]
  split <;> rfl

/-- The others are converted. -/
theorem candleFromDict_parse (htime : (chosen data).timestamp.truthy = true)
    (hprices : ¬ ∃ p ∈ (chosen data).prices, p.isNone = true) :
    candleFromDict symbol data n = exceptValueOrType (parse symbol n (chosen data)) := by
  have hnone : ¬ (chosen data).prices.any Json.isNone = true :=
    fun hany => hprices (List.any_eq_true.mp hany)
  rw [candleFromDict_eq, isNone_of_truthy htime, if_neg (by decide), if_neg hnone]

/-- The candle has the payload's numbers where these are the values that were converted. -/
theorem transcribed_iff {f : Fields} :
    (∃ c, parse symbol n { f with volume := f.volume.or (.int 0) }
      = .ok c ∧ Transcribed f c) ↔
    (∃ t, timestampOf f.timestamp = .ok t) ∧ (∀ p ∈ f.prices, AsWritten p) ∧
      VolumeKept f.volume := by
  constructor
  · rintro ⟨c, hparse, hfaithful⟩
    obtain ⟨hcarries, -⟩ := parse_ok_iff.mp hparse
    have hvolume : (f.volume.or (.int 0)).toDec.map keptVolume = .ok c.volume := hcarries.volume
    rw [hfaithful.volume] at hvolume
    exact ⟨⟨_, hcarries.timestamp⟩, forall_prices.mpr ⟨⟨_, hcarries.openPrice, hfaithful.openPrice⟩,
      ⟨_, hcarries.high, hfaithful.high⟩, ⟨_, hcarries.low, hfaithful.low⟩,
      ⟨_, hcarries.close, hfaithful.close⟩⟩, (volumeKept_iff _).mp hvolume⟩
  · rintro ⟨⟨t, ht⟩, hprices, hkept⟩
    obtain ⟨⟨o, ho, ho'⟩, ⟨hi, hhi, hhi'⟩, ⟨lo, hlo, hlo'⟩, cl, hcl, hcl'⟩ :=
      forall_prices.mp hprices
    refine ⟨⟨upper symbol, t, o, hi, lo, cl, numberOf f.volume, n⟩, parse_ok_iff.mpr
      ⟨⟨ht, ho, hhi, hlo, hcl, (volumeKept_iff _).mpr hkept⟩, rfl, rfl⟩, ho', hhi', hlo', hcl', rfl⟩

/-- **Where all values are true, the shapes are read as one.** -/
theorem parsed_alike_of_truthy (h : ShortKeyed data)
    (htime : (shortFields data).timestamp.truthy = true)
    (hprices : ∀ p ∈ (shortFields data).prices, p.truthy = true) :
    ParsedAlike symbol n data ↔ Caught (timestampOf (shortFields data).timestamp) ∨
      ((∃ t, timestampOf (shortFields data).timestamp = .ok t) ∧
        (TooLongFirst ((shortFields data).prices ++ [(shortFields data).volume]) ∨
          (∀ p ∈ (shortFields data).prices, AsWritten p) ∧
          VolumeKept (shortFields data).volume)) := by
  obtain ⟨hopen, hhigh, hlow, hclose⟩ : (shortFields data).openPrice.truthy = true ∧
      (shortFields data).high.truthy = true ∧ (shortFields data).low.truthy = true ∧
      (shortFields data).close.truthy = true := forall_prices.mp hprices
  have hlong := chosen_long h
  have hshort := chosen_short h
  rw [or_null_of_truthy htime] at hshort hlong
  rw [or_null_of_truthy hopen, or_null_of_truthy hhigh, or_null_of_truthy hlow,
    or_null_of_truthy hclose, ← hlong] at hshort
  have hpresent : ¬ ∃ p ∈ (chosen (withLongKeys data)).prices, p.isNone = true := by
    rintro ⟨p, hp, hnone⟩
    rw [hlong] at hp
    rw [isNone_of_truthy (hprices p hp)] at hnone
    exact absurd hnone (by decide)
  have htrue : (chosen (withLongKeys data)).timestamp.truthy = true := by
    rw [hlong]
    exact htime
  -- nothing is replaced under the short keys, so both shapes choose the same values
  have hsame : candleFromDict symbol data n = candleFromDict symbol (withLongKeys data) n := by
    rw [candleFromDict_parse (hshort ▸ htrue) (hshort ▸ hpresent),
      candleFromDict_parse htrue hpresent, hshort]
  unfold ParsedAlike
  simp only [hsame, and_self, ← and_assoc]
  rw [candleFromDict_parse htrue hpresent, parse_refused_iff]
  simp only [exceptValueOrType_some_iff]
  rw [hlong, transcribed_iff, or_assoc, ← and_or_left,
    ← tooLongFirst_or (shortFields data).prices (shortFields data).volume]
  exact Iff.rfl

/-- Under the short keys a price that gives way to nothing is missing. -/
theorem short_refused (h : ShortKeyed data)
    (hprice : ∃ p ∈ (shortFields data).prices, p.or .null = .null) :
    candleFromDict symbol data n = .ok none := by
  obtain ⟨p, hp, hnull⟩ := hprice
  apply candleFromDict_no_price
  rw [chosen_short h]
  have hmem : p.or .null ∈ (shortFields data).prices.map (Json.or · .null) :=
    List.mem_map_of_mem hp
  exact ⟨_, hmem, by rw [hnull]; rfl⟩

/-- Both shapes refuse a payload without a timestamp. -/
theorem parsed_alike_of_no_time (h : ShortKeyed data)
    (htime : (shortFields data).timestamp.truthy = false) : ParsedAlike symbol n data := by
  refine Or.inl ⟨?_, ?_⟩
  · apply candleFromDict_no_timestamp
    rw [chosen_short h]
    exact or_null_of_falsy htime
  · apply candleFromDict_no_timestamp
    rw [chosen_long h]
    exact or_null_of_falsy htime

/-- Both refuse a `null`. -/
theorem parsed_alike_of_null (h : ShortKeyed data)
    (hnull : ∃ p ∈ (shortFields data).prices, p.isNone = true) : ParsedAlike symbol n data := by
  refine Or.inl ⟨?_, ?_⟩
  · obtain ⟨p, hp, hnone⟩ := hnull
    exact short_refused h ⟨p, hp, by rw [isNone_iff.mp hnone]; rfl⟩
  · apply candleFromDict_no_price
    rw [chosen_long h]
    exact hnull

/-- The short keys lose a price that is not true, so both shapes are refused or none. -/
theorem parsed_alike_of_falsy_price (h : ShortKeyed data)
    (htime : (shortFields data).timestamp.truthy = true)
    (hnull : ¬ ∃ p ∈ (shortFields data).prices, p.isNone = true)
    (hfalsy : ∃ p ∈ (shortFields data).prices, p.truthy = false) :
    ParsedAlike symbol n data ↔ Caught (timestampOf (shortFields data).timestamp) ∨
      ((∃ t, timestampOf (shortFields data).timestamp = .ok t) ∧
        TooLongFirst ((shortFields data).prices ++ [(shortFields data).volume])) := by
  have hnone : candleFromDict symbol data n = .ok none := by
    obtain ⟨p, hp, hp'⟩ := hfalsy
    exact short_refused h ⟨p, hp, or_null_of_falsy hp'⟩
  have hlongTime : (chosen (withLongKeys data)).timestamp = (shortFields data).timestamp := by
    rw [chosen_long h]
    exact or_null_of_truthy htime
  have hparse : candleFromDict symbol (withLongKeys data) n
      = exceptValueOrType (parse symbol n (chosen (withLongKeys data))) := by
    apply candleFromDict_parse
    · rw [hlongTime]
      exact htime
    · rw [chosen_long h]
      exact hnull
  unfold ParsedAlike
  rw [hnone, hparse, parse_refused_iff, hlongTime, chosen_long h,
    ← tooLongFirst_or (shortFields data).prices (shortFields data).volume]
  simp only [true_and, Except.ok.injEq, reduceCtorEq, false_and, exists_false, or_false]
  exact Iff.rfl

/-- **Both shapes are parsed alike** exactly where every value is read as it is given. -/
theorem parsed_alike_iff (h : ShortKeyed data) :
    ParsedAlike symbol n data ↔ ReadAsGiven (shortFields data) := by
  unfold ReadAsGiven
  by_cases htime : (shortFields data).timestamp.truthy = true
  · by_cases hnull : ∃ p ∈ (shortFields data).prices, p.isNone = true
    · exact iff_of_true (parsed_alike_of_null h hnull) (Or.inr (Or.inr (Or.inl hnull)))
    · by_cases hprices : ∀ p ∈ (shortFields data).prices, p.truthy = true
      · -- nothing is lost: what counts is what the values convert to
        rw [parsed_alike_of_truthy h htime hprices]
        have hsplit : (∀ p ∈ (shortFields data).prices, p.truthy = true ∧ AsWritten p) ↔
            ∀ p ∈ (shortFields data).prices, AsWritten p :=
          forall₂_congr fun p hp => and_iff_right (hprices p hp)
        simp only [hsplit, htime, hnull, Bool.true_eq_false, false_or]
      · -- only a refusal makes up for the price that is lost
        rw [parsed_alike_of_falsy_price h htime hnull (by simpa using hprices)]
        have hnot : ¬ ∀ p ∈ (shortFields data).prices, p.truthy = true ∧ AsWritten p :=
          fun hall => hprices fun p hp => (hall p hp).1
        simp only [hnot, htime, hnull, Bool.true_eq_false, false_or, false_and, or_false]
  · have hfalsy : (shortFields data).timestamp.truthy = false := by simpa using htime
    exact iff_of_true (parsed_alike_of_no_time h hfalsy) (Or.inl hfalsy)

end Parser

/-! ### A payload with numbers, and one that opens at zero. -/

/-- A candle that opens at 900 seconds, at a price `o` and with a volume of 5. -/
def shortPayload (o : Json) : Payload :=
  [("t", .int 900000), ("T", .int 1799999), ("s", .str "BTC"), ("o", o), ("h", .str "2.5"),
   ("l", .str "0"), ("c", .str "1.5"), ("v", .str "5")]

theorem shortKeyed_shortPayload (o : Json) : ShortKeyed (shortPayload o) := by
  intro e he
  have hkey : e.1 ∈ (shortPayload o).map Prod.fst := List.mem_map_of_mem he
  have hshort : ∀ key ∈ ["t", "T", "s", "o", "h", "l", "c", "v"], key ∉ longKeys := by decide
  exact hshort e.1 hkey

theorem parsed_alike_string : ShortKeyed (shortPayload (.str "1.25")) ∧
    (ParsedAlike "BTC" 900 (shortPayload (.str "1.25")) ↔
      ReadAsGiven (shortFields (shortPayload (.str "1.25")))) :=
  ⟨shortKeyed_shortPayload _, parsed_alike_iff (shortKeyed_shortPayload _)⟩

/-- **A price of zero is missing under its short key**, and a price under its long one. -/
theorem parsed_alike_fails : ¬ ∀ (symbol : String) (n : Nat) (data : Payload),
    ShortKeyed data → ParsedAlike symbol n data := by
  intro h
  have hnone : candleFromDict "BTC" (shortPayload (.int 0)) 900 = .ok none := rfl
  rcases h "BTC" 900 (shortPayload (.int 0)) (shortKeyed_shortPayload _) with
    ⟨-, hlong⟩ | ⟨c, hshort, -⟩
  · have hsome : ∃ c, candleFromDict "BTC" (withLongKeys (shortPayload (.int 0))) 900
        = .ok (some c) := ⟨_, rfl⟩
    obtain ⟨c, hc⟩ := hsome
    rw [hc] at hlong
    exact absurd (Except.ok.inj hlong) (by simp)
  · rw [hnone] at hshort
    exact absurd (Except.ok.inj hshort) (by simp)

end Pulse.Ingest
