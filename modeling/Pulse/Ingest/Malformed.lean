/-
  Pulse.Ingest.Malformed
  ──────────────────────
  **WHAT A MALFORMED ITEM COSTS.**

  The parser returns `None` for some malformed items and raises for the others, and an
  exception costs the whole reply.  It also tests values for truth, so that a zero under
  one key gives way to another key.

    • `given`, `itemCandle` — the values that an item gives, and its candle,
    • `withoutFalsy`        — the item without the zeros that give way,
    • `Harmless`            — it says the same without them, or is refused quietly,
    • `OnlyItself`          — a malformed item costs only itself,
    • `only_itself_iff`     — it does exactly if every item is harmless.
-/
import Pulse.Ingest.Client
import Pulse.Ingest.Fields
import Mathlib.Algebra.Order.BigOperators.Group.List
import Mathlib.Algebra.Order.Group.Nat

namespace Pulse.Ingest

open Pulse.Async

/-! ## §1. What an item gives. -/

/-- The first value under some keys that is present. -/
def firstPresent (data : Payload) : List String → Json
  | [] => .null
  | key :: keys =>
      if (Json.get data key).isNone then firstPresent data keys else Json.get data key

/-- The values that are given; an absent volume is zero. -/
def given (data : Payload) : Fields where
  timestamp := firstPresent data ["t", "time", "timestamp"]
  openPrice := firstPresent data ["o", "open"]
  high := firstPresent data ["h", "high"]
  low := firstPresent data ["l", "low"]
  close := firstPresent data ["c", "close"]
  volume :=
    if (firstPresent data ["v", "volume"]).isNone then .int 0
    else firstPresent data ["v", "volume"]

/-- Timestamp and prices are present and convertible, the volume is absent or convertible. -/
def WellFormed (data : Payload) : Prop :=
  (∃ t, timestampOf (given data).timestamp = .ok t) ∧
    (∀ p ∈ (given data).prices, ∃ d, p.toDec = .ok d) ∧ ∃ d, (given data).volume.toDec = .ok d

/-- The candle of a well-formed item. -/
def itemCandle (symbol : String) (n : Nat) (data : Payload) : Option Candle :=
  (parse symbol n (given data)).toOption

section Item

variable {symbol : String} {n : Nat} {data : Payload} {c : Candle}

theorem itemCandle_eq_some : itemCandle symbol n data = some c ↔
    parse symbol n (given data) = .ok c := by
  unfold itemCandle
  cases parse symbol n (given data) <;> simp [Except.toOption]

theorem wellFormed_iff (symbol : String) (n : Nat) :
    WellFormed data ↔ ∃ c, itemCandle symbol n data = some c := by
  simp only [itemCandle_eq_some]
  constructor
  · rintro ⟨⟨t, ht⟩, hprices, v, hv⟩
    have hvolume : (given data).volume.toDec.map keptVolume = .ok (keptVolume v) := by
      rw [hv]
      rfl
    obtain ⟨c, hc, -⟩ := exists_parse symbol n ht hprices hvolume
    exact ⟨c, hc⟩
  · rintro ⟨c, hc⟩
    obtain ⟨hcarries, -⟩ := parse_ok_iff.mp hc
    refine ⟨⟨_, hcarries.timestamp⟩, hcarries.prices, ?_⟩
    have hvolume := hcarries.volume
    cases hv : (given data).volume.toDec with
    | ok d => exact ⟨d, rfl⟩
    | error e =>
        rw [hv] at hvolume
        exact absurd hvolume (by simp [Except.map])

/-! ## §2. What the parser does with it. -/

/-- A timestamp or a price is missing, or the timestamp is refused with a `ValueError` or a
`TypeError`, or the first value behind it that is no number is an integer too long. -/
def Refused (f : Fields) : Prop :=
  f.timestamp.isNone = true ∨ (∃ p ∈ f.prices, p.isNone = true) ∨
    Caught (timestampOf f.timestamp) ∨
      (∃ t, timestampOf f.timestamp = .ok t) ∧ TooLongFirst (f.prices ++ [f.volume])

theorem candleFromDict_none_iff :
    candleFromDict symbol data n = .ok none ↔ Refused (chosen data) := by
  unfold Refused
  rw [candleFromDict_eq]
  split
  next h => simp [h]
  next h =>
    split
    next h' => simp [List.any_eq_true.mp h']
    next h' =>
      have hpresent : ¬ ∃ p ∈ (chosen data).prices, p.isNone = true :=
        fun hnull => h' (List.any_eq_true.mpr hnull)
      rw [parse_refused_iff]
      simp only [h, hpresent, Bool.false_eq_true, false_or]

theorem candleFromDict_some_iff : candleFromDict symbol data n = .ok (some c) ↔
    parse symbol n (chosen data) = .ok c := by
  rw [candleFromDict_eq]
  split
  next h =>
    -- `if timestamp_ms is None: return None`
    refine iff_of_false (by simp) fun hparse => ?_
    have htime := (parse_ok_iff.mp hparse).1.timestamp
    rw [isNone_iff.mp h] at htime
    exact absurd htime (by simp [timestampOf, Json.toInt, bind, Except.bind])
  next =>
    split
    next h =>
      -- a price is `None`, and no number is
      refine iff_of_false (by simp) fun hparse => ?_
      have hcarries := (parse_ok_iff.mp hparse).1
      have hnumber : ∀ {x : Json} {d : Dec}, x.toDec = .ok d → x.isNone = false := by
        intro x d hd
        cases x <;> simp_all [Json.toDec, Json.isNone]
      obtain ⟨p, hp, hnull⟩ := List.any_eq_true.mp h
      obtain ⟨d, hd⟩ := hcarries.prices p hp
      rw [hnumber hd] at hnull
      exact absurd hnull (by decide)
    next => exact exceptValueOrType_some_iff

/-- Two choices convert to the same candle. -/
structure SameValues (f g : Fields) : Prop where
  timestamp : timestampOf f.timestamp = timestampOf g.timestamp
  openPrice : f.openPrice.toDec = g.openPrice.toDec
  high : f.high.toDec = g.high.toDec
  low : f.low.toDec = g.low.toDec
  close : f.close.toDec = g.close.toDec
  volume : f.volume.toDec.map keptVolume = g.volume.toDec.map keptVolume

theorem SameValues.carries_iff {f g : Fields} (h : SameValues f g) : Carries f c ↔ Carries g c := by
  constructor
  · intro hc
    exact ⟨h.timestamp ▸ hc.timestamp, h.openPrice ▸ hc.openPrice, h.high ▸ hc.high,
      h.low ▸ hc.low, h.close ▸ hc.close, h.volume ▸ hc.volume⟩
  · intro hc
    exact ⟨h.timestamp ▸ hc.timestamp, h.openPrice ▸ hc.openPrice, h.high ▸ hc.high,
      h.low ▸ hc.low, h.close ▸ hc.close, h.volume ▸ hc.volume⟩

theorem SameValues.of_carries {f g : Fields} (hf : Carries f c) (hg : Carries g c) :
    SameValues f g where
  timestamp := hf.timestamp.trans hg.timestamp.symm
  openPrice := hf.openPrice.trans hg.openPrice.symm
  high := hf.high.trans hg.high.symm
  low := hf.low.trans hg.low.symm
  close := hf.close.trans hg.close.symm
  volume := hf.volume.trans hg.volume.symm

/-! ### Values that give way. -/

/-- The last key of each field but the volume: what stands there is not tested for truth. -/
def lastKeys : List String := ["timestamp", "open", "high", "low", "close"]

/-- The item without its values that are not true, except under these keys. -/
def withoutFalsy (data : Payload) : Payload :=
  data.filter fun e => (Json.get data e.1).truthy || e.1 ∈ lastKeys

theorem get_cons (e : String × Json) (data : Payload) (key : String) :
    Json.get (e :: data) key = if e.1 = key then e.2 else Json.get data key := by
  unfold Json.get
  rw [List.find?_cons]
  by_cases he : e.1 = key
  · rw [decide_eq_true he, if_pos he]
  · rw [decide_eq_false he, if_neg he]

/-- Keys may be dropped. -/
theorem get_filter (keep : String → Bool) (data : Payload) (key : String) :
    Json.get (data.filter fun e => keep e.1) key
      = if keep key then Json.get data key else .null := by
  induction data with
  | nil => exact (ite_self _).symm
  | cons e data ih =>
      rw [List.filter_cons, get_cons]
      by_cases he : e.1 = key
      · subst he
        cases hkeep : keep e.1 with
        | true => rw [if_pos rfl, get_cons, if_pos rfl, if_pos rfl, if_pos rfl]
        | false => rw [if_neg (by decide), ih, hkeep, if_neg (by decide), if_neg (by decide)]
      · rw [if_neg he]
        split
        next => rw [get_cons, if_neg he, ih]
        next => exact ih

/-- A value that is not true is gone. -/
theorem get_withoutFalsy {key : String} (hkey : key ∉ lastKeys) :
    Json.get (withoutFalsy data) key
      = if (Json.get data key).truthy then Json.get data key else .null := by
  have h := get_filter (fun k => (Json.get data k).truthy || k ∈ lastKeys) data key
  simp only [hkey, decide_false, Bool.or_false] at h
  exact h

/-- Under the last keys nothing is. -/
theorem get_withoutFalsy_last {key : String} (hkey : key ∈ lastKeys) :
    Json.get (withoutFalsy data) key = Json.get data key := by
  have h := get_filter (fun k => (Json.get data k).truthy || k ∈ lastKeys) data key
  simp only [hkey, decide_true, Bool.or_true, if_true] at h
  exact h

theorem or_or (x y z : Json) : (x.or y).or z = x.or (y.or z) := by
  unfold Json.or
  split <;> simp [*]

theorem firstPresent_withoutFalsy {key : String} {keys : List String} (hkey : key ∉ lastKeys) :
    firstPresent (withoutFalsy data) (key :: keys)
      = (Json.get data key).or (firstPresent (withoutFalsy data) keys) := by
  rw [firstPresent, get_withoutFalsy hkey, Json.or]
  split
  next htruthy => rw [isNone_of_truthy htruthy, if_neg (by decide)]
  next => rfl

theorem firstPresent_withoutFalsy_last {key : String} (hkey : key ∈ lastKeys) :
    firstPresent (withoutFalsy data) [key] = Json.get data key := by
  rw [firstPresent, get_withoutFalsy_last hkey]
  split
  next h => exact (isNone_iff.mp h).symm
  next => rfl

/-- **The parser reads the item without them.** -/
theorem chosen_eq (data : Payload) : chosen data = given (withoutFalsy data) := by
  have hprice : ∀ {short long : String}, short ∉ lastKeys → long ∈ lastKeys →
      firstPresent (withoutFalsy data) [short, long]
        = (Json.get data short).or (Json.get data long) := by
    intro short long hshort hlong
    rw [firstPresent_withoutFalsy hshort, firstPresent_withoutFalsy_last hlong]
  have htime : firstPresent (withoutFalsy data) ["t", "time", "timestamp"]
      = getTimestampMs data := by
    rw [firstPresent_withoutFalsy (by decide), firstPresent_withoutFalsy (by decide),
      firstPresent_withoutFalsy_last (by decide), ← or_or]
    rfl
  have hvolume : firstPresent (withoutFalsy data) ["v", "volume"]
      = (Json.get data "v").or ((Json.get data "volume").or .null) := by
    rw [firstPresent_withoutFalsy (by decide), firstPresent_withoutFalsy (by decide)]
    rfl
  have hzero : ∀ x : Json, (if (x.or .null).isNone then .int 0 else x.or .null)
      = x.or (.int 0) := by
    intro x
    unfold Json.or
    cases htruthy : x.truthy with
    | true => simp [isNone_of_truthy htruthy]
    | false => rfl
  unfold given chosen
  rw [htime, hprice (by decide) (by decide), hprice (by decide) (by decide),
    hprice (by decide) (by decide), hprice (by decide) (by decide), hvolume, ← or_or, hzero]

/-- **An item is harmless**: if it is well-formed it says the same without these values, and
otherwise it is refused without them. -/
structure Harmless (data : Payload) : Prop where
  zeros : WellFormed data → SameValues (given (withoutFalsy data)) (given data)
  refused : ¬ WellFormed data → Refused (given (withoutFalsy data))

theorem harmless_iff (symbol : String) (n : Nat) :
    Harmless data ↔ candleFromDict symbol data n = .ok (itemCandle symbol n data) := by
  by_cases hwell : WellFormed data
  · obtain ⟨c, hc⟩ := (wellFormed_iff symbol n).mp hwell
    obtain ⟨hgiven, hsymbol, hinterval⟩ := parse_ok_iff.mp (itemCandle_eq_some.mp hc)
    rw [hc, candleFromDict_some_iff, parse_ok_iff, chosen_eq]
    constructor
    · intro h
      exact ⟨(h.zeros hwell).carries_iff.mpr hgiven, hsymbol, hinterval⟩
    · rintro ⟨hchosen, -⟩
      exact ⟨fun _ => .of_carries hchosen hgiven, fun hnot => absurd hwell hnot⟩
  · have hnone : itemCandle symbol n data = none := by
      cases hc : itemCandle symbol n data with
      | none => rfl
      | some c => exact absurd ((wellFormed_iff symbol n).mpr ⟨c, hc⟩) hwell
    rw [hnone, candleFromDict_none_iff, chosen_eq]
    exact ⟨fun h => h.refused hwell, fun h => ⟨fun hyes => absurd hyes hwell, fun _ => h⟩⟩

end Item

/-! ## §3. A value that gives way was zero. -/

/-- `x or y` and the first of the two that is present. -/
theorem or_eq_present (x y : Json) :
    x.or y = (if x.isNone then y else x) ∨ (x.isNone = false ∧ x.truthy = false) := by
  unfold Json.or
  cases hnone : x.isNone with
  | true =>
      obtain rfl := isNone_iff.mp hnone
      exact Or.inl rfl
  | false =>
      cases htruthy : x.truthy with
      | true => exact Or.inl rfl
      | false => exact Or.inr ⟨rfl, rfl⟩

theorem firstPresent_two (data : Payload) (short long : String) :
    firstPresent data [short, long]
      = if (Json.get data short).isNone then Json.get data long else Json.get data short := by
  have hlast : firstPresent data [long] = Json.get data long := by
    unfold firstPresent
    split
    next h => exact (isNone_iff.mp h).symm
    next => rfl
  rw [firstPresent, hlast]

theorem price_choice (data : Payload) (short long : String) :
    (Json.get data short).or (Json.get data long) = firstPresent data [short, long] ∨
      (firstPresent data [short, long]).truthy = false := by
  rw [firstPresent_two]
  rcases or_eq_present (Json.get data short) (Json.get data long) with h | ⟨hpresent, hfalsy⟩
  · exact Or.inl h
  · right
    rw [hpresent]
    exact hfalsy

theorem timestamp_choice (data : Payload) :
    (chosen data).timestamp = (given data).timestamp ∨
      (given data).timestamp.truthy = false := by
  have hgiven : (given data).timestamp
      = if (Json.get data "t").isNone then firstPresent data ["time", "timestamp"]
        else Json.get data "t" := rfl
  have hchosen : (chosen data).timestamp
      = ((Json.get data "t").or (Json.get data "time")).or (Json.get data "timestamp") := rfl
  rw [hgiven, hchosen]
  -- a `t` that is present and not true is where the two part
  cases hnone : (Json.get data "t").isNone with
  | true =>
      rw [isNone_iff.mp hnone]
      exact price_choice data "time" "timestamp"
  | false =>
      cases htruthy : (Json.get data "t").truthy with
      | true =>
          have hself : ∀ y, (Json.get data "t").or y = Json.get data "t" :=
            fun y => if_pos htruthy
          rw [hself, hself]
          exact Or.inl rfl
      | false => exact Or.inr htruthy

theorem volume_choice (data : Payload) :
    (chosen data).volume = (given data).volume ∨ (given data).volume.truthy = false := by
  have hgiven : (given data).volume = if (firstPresent data ["v", "volume"]).isNone then .int 0
      else firstPresent data ["v", "volume"] := rfl
  have hchosen : (chosen data).volume
      = ((Json.get data "v").or (Json.get data "volume")).or (.int 0) := rfl
  rw [hgiven, hchosen]
  -- the volume goes through one `or` more, with 0 at its end
  rcases price_choice data "v" "volume" with h | h
  · rw [h]
    rcases or_eq_present (firstPresent data ["v", "volume"]) (.int 0) with h' | ⟨hpresent, hfalsy⟩
    · exact Or.inl h'
    · right
      rw [hpresent]
      exact hfalsy
  · right
    split
    next => rfl
    next => exact h

/-- What is not true and a timestamp is the epoch. -/
theorem timestampOf_of_falsy {x : Json} {t : Time} (hx : x.truthy = false)
    (ht : timestampOf x = .ok t) : t = 0 := by
  have hepoch : ∀ {y : Json}, y.toInt = .ok 0 → timestampOf y = .ok t → t = 0 := by
    intro y hy hty
    unfold timestampOf at hty
    rw [hy, ok_bind, fromMs_zero] at hty
    exact (Except.ok.inj hty).symm
  cases x with
  | null | arr items | obj entries =>
      -- `int` raises
      exact absurd ht (by simp [timestampOf, Json.toInt, bind, Except.bind])
  | bool b =>
      obtain rfl : b = false := hx
      exact hepoch rfl ht
  | int i =>
      obtain rfl : i = 0 := by simpa [Json.truthy] using hx
      exact hepoch rfl ht
  | num q =>
      have hzero : (Json.num q).toInt = .ok 0 := by
        show Json.intOfDouble (Double.ofRat q) = .ok 0
        unfold Json.intOfDouble
        rw [Double.trunc_of_falsy hx]
      exact hepoch hzero ht
  | str s =>
      obtain rfl : s = "" := by simpa [Json.truthy] using hx
      have hraise : timestampOf (.str "")
          = .error ⟨.valueError, "invalid literal for int() with base 10"⟩ := rfl
      rw [hraise] at ht
      exact absurd ht (by simp)

/-- How many values of a candle are zero; a volume of zero is `None`. -/
def zeros (c : Candle) : ℕ :=
  (if c.timestamp = 0 then 1 else 0) + (if c.openPrice = .fin 0 then 1 else 0)
    + (if c.high = .fin 0 then 1 else 0) + (if c.low = .fin 0 then 1 else 0)
    + (if c.close = .fin 0 then 1 else 0) + (if c.volume = none then 1 else 0)

theorem zero_le {α : Type} [DecidableEq α] {x y z : α} (h : y = x ∨ x = z) :
    (if y = z then 1 else 0) ≤ (if x = z then 1 else 0) ∧
      ((if y = z then 1 else 0) = (if x = z then 1 else 0) → y = x) := by
  rcases h with rfl | rfl
  · exact ⟨le_refl _, fun _ => rfl⟩
  · rw [if_pos rfl]
    split
    next hy => exact ⟨le_refl _, fun _ => hy⟩
    next => exact ⟨by decide, fun h => absurd h (by decide)⟩

/-- **The parser loses zeros**: a candle that it reads otherwise has fewer than the one given. -/
theorem zeros_le {data : Payload} {c c' : Candle} (hgiven : Carries (given data) c)
    (hchosen : Carries (chosen data) c') :
    zeros c' ≤ zeros c ∧ (zeros c' = zeros c → Carries (chosen data) c) := by
  have hprice : ∀ {short long : String} {d d' : Dec},
      (firstPresent data [short, long]).toDec = .ok d →
      ((Json.get data short).or (Json.get data long)).toDec = .ok d' → d' = d ∨ d = .fin 0 := by
    intro short long d d' hd hd'
    rcases price_choice data short long with h | h
    · rw [h, hd] at hd'
      exact Or.inl (Except.ok.inj hd').symm
    · exact Or.inr (toDec_of_falsy h hd)
  have htime : c'.timestamp = c.timestamp ∨ c.timestamp = 0 := by
    rcases timestamp_choice data with h | h
    · have hsame := hchosen.timestamp
      rw [h, hgiven.timestamp] at hsame
      exact Or.inl (Except.ok.inj hsame).symm
    · exact Or.inr (timestampOf_of_falsy h hgiven.timestamp)
  have hvolume : c'.volume = c.volume ∨ c.volume = none := by
    rcases volume_choice data with h | h
    · have hsame := hchosen.volume
      rw [h, hgiven.volume] at hsame
      exact Or.inl (Except.ok.inj hsame).symm
    · right
      have hkept := hgiven.volume
      cases hd : (given data).volume.toDec with
      | error e =>
          rw [hd] at hkept
          exact absurd hkept (by simp [Except.map])
      | ok d =>
          obtain rfl := toDec_of_falsy h hd
          rw [hd] at hkept
          exact (Except.ok.inj hkept).symm
  -- value by value: the same, or a zero that was given and is lost
  have ht := zero_le htime
  have ho := zero_le (hprice hgiven.openPrice hchosen.openPrice)
  have hh := zero_le (hprice hgiven.high hchosen.high)
  have hl := zero_le (hprice hgiven.low hchosen.low)
  have hc := zero_le (hprice hgiven.close hchosen.close)
  have hv := zero_le hvolume
  unfold zeros
  refine ⟨by omega, fun hsame => ?_⟩
  exact ⟨ht.2 (by omega) ▸ hchosen.timestamp, ho.2 (by omega) ▸ hchosen.openPrice,
    hh.2 (by omega) ▸ hchosen.high, hl.2 (by omega) ▸ hchosen.low,
    hc.2 (by omega) ▸ hchosen.close, hv.2 (by omega) ▸ hchosen.volume⟩

/-! ## §4. Weighing a reply. -/

section Weights

variable {α β : Type} (f g : α → ℕ) (xs : List α)

/-- Sums of ordered terms that agree have equal terms. -/
theorem eq_of_sum_eq (hle : ∀ x ∈ xs, f x ≤ g x) (hsum : (xs.map f).sum = (xs.map g).sum) :
    ∀ x ∈ xs, f x = g x := by
  induction xs with
  | nil => exact fun x hx => absurd hx List.not_mem_nil
  | cons x xs ih =>
      -- neither the head nor the tail can make up for the other
      have hhead := hle x List.mem_cons_self
      have htail : (xs.map f).sum ≤ (xs.map g).sum :=
        List.sum_le_sum fun y hy => hle y (List.mem_cons_of_mem _ hy)
      rw [List.map_cons, List.map_cons, List.sum_cons, List.sum_cons] at hsum
      intro y hy
      rcases List.mem_cons.mp hy with rfl | hy
      · omega
      · exact ih (fun z hz => hle z (List.mem_cons_of_mem _ hz)) (by omega) y hy

/-- The weight of what is kept, item by item. -/
theorem sum_filterMap (pick : α → Option β) (weight : β → ℕ) :
    ((xs.filterMap pick).map weight).sum = (xs.map fun x => ((pick x).map weight).getD 0).sum := by
  induction xs with
  | nil => rfl
  | cons x xs ih =>
      rw [List.map_cons, List.sum_cons, ← ih, List.filterMap_cons]
      cases pick x with
      | none => simp
      | some y => simp

end Weights

section Reply

variable {coin : String} {n : Nat} {items : List Payload}

/-- What the parser makes of an item, if it does not raise. -/
def itemRead (coin : String) (n : Nat) (data : Payload) : Option Candle :=
  (candleFromDict coin data n).toOption.join

theorem itemRead_eq_some {data : Payload} {c : Candle} : itemRead coin n data = some c ↔
    candleFromDict coin data n = .ok (some c) := by
  unfold itemRead
  cases candleFromDict coin data n <;> simp [Except.toOption]

/-- In a reply that is parsed no item raises. -/
theorem items_read {parsed : List (Option Candle)}
    (h : (items.mapM fun d => candleFromDict coin d n) = .ok parsed) :
    ∀ d ∈ items, candleFromDict coin d n = .ok (itemRead coin n d) := by
  have hall := mapM_forall₂ h
  clear h
  induction hall with
  | nil => exact fun d hd => absurd hd List.not_mem_nil
  | cons hhead _ ih =>
      intro d hd
      rcases List.mem_cons.mp hd with rfl | hd
      · unfold itemRead
        rw [hhead]
        rfl
      · exact ih d hd

/-- **A reply that is read as a whole is read item by item**: of well-formed items the parser
can only lose zeros, so where all candles come out, each comes out of its own item. -/
theorem read_of_perm (hmalformed : ∀ d ∈ items, ¬ WellFormed d → itemRead coin n d = none)
    (hperm : (items.filterMap (itemRead coin n)).Perm (items.filterMap (itemCandle coin n))) :
    ∀ d ∈ items, itemRead coin n d = itemCandle coin n d := by
  -- a candle weighs more than none, and the more the more zeros it has
  have hweights := (hperm.map fun c => 1 + zeros c).sum_eq
  rw [sum_filterMap, sum_filterMap] at hweights
  have hpair : ∀ d ∈ items, ∀ c c', itemCandle coin n d = some c → itemRead coin n d = some c' →
      zeros c' ≤ zeros c ∧ (zeros c' = zeros c → c' = c) := by
    intro d _ c c' hc hc'
    obtain ⟨hgiven, hsymbol, hinterval⟩ := parse_ok_iff.mp (itemCandle_eq_some.mp hc)
    have hparse := candleFromDict_some_iff.mp (itemRead_eq_some.mp hc')
    obtain ⟨hchosen, -⟩ := parse_ok_iff.mp hparse
    obtain ⟨hle, heq⟩ := zeros_le hgiven hchosen
    refine ⟨hle, fun hsame => ?_⟩
    -- with as many zeros, both come from the same values
    have hother := parse_ok_iff.mpr ⟨heq hsame, hsymbol, hinterval⟩
    rw [hparse] at hother
    exact Except.ok.inj hother
  have hle : ∀ d ∈ items, ((itemRead coin n d).map fun c => 1 + zeros c).getD 0
      ≤ ((itemCandle coin n d).map fun c => 1 + zeros c).getD 0 := by
    intro d hd
    cases hc' : itemRead coin n d with
    | none => exact Nat.zero_le _
    | some c' =>
        cases hc : itemCandle coin n d with
        | none =>
            have hnot : ¬ WellFormed d := by
              rw [wellFormed_iff coin n]
              simp [hc]
            rw [hmalformed d hd hnot] at hc'
            exact absurd hc' (by simp)
        | some c =>
            have := (hpair d hd c c' hc hc').1
            show 1 + zeros c' ≤ 1 + zeros c
            omega
  -- the sums agree, so each item weighs the same on both sides
  have heq := eq_of_sum_eq _ _ items hle hweights
  intro d hd
  have hsame := heq d hd
  cases hc : itemCandle coin n d with
  | none =>
      have hnot : ¬ WellFormed d := by
        rw [wellFormed_iff coin n]
        simp [hc]
      exact hmalformed d hd hnot
  | some c =>
      rw [hc] at hsame
      cases hc' : itemRead coin n d with
      | none =>
          rw [hc'] at hsame
          have hsame : 0 = 1 + zeros c := hsame
          omega
      | some c' =>
          rw [hc'] at hsame
          have hsame : 1 + zeros c' = 1 + zeros c := hsame
          rw [(hpair d hd c c' hc hc').2 (by omega)]

end Reply

/-! ## §5. Requests. -/

/-- Ascending, as the stable sort leaves them. -/
def byTime (candles : List Candle) : List Candle :=
  candles.insertionSort fun c d => c.timestamp ≤ d.timestamp

/-- A reply that is a list of these objects, or an object with such a list as its `data`. -/
def Holds (reply : RestReply) (items : List Payload) : Prop :=
  reply = .response 200 (some (.arr (items.map .obj))) ∨
    ∃ dict, reply = .response 200 (some (.obj dict)) ∧ Json.get dict "data" = .arr (items.map .obj)

/-- A program returns `a` if its operations are answered so. -/
def Returns {α : Type} (p : ClientProg α) (inputs : List Input) (w : Client) (a : α) : Prop :=
  ∃ w', Coro.run Client.perform inputs p w = some (.pure a, w')

section Requests

variable {coin interval : String} {n : Nat} {items : List Payload} {reply : RestReply}

theorem dataOfReply_holds (h : Holds reply items) :
    dataOfReply reply = .ok (some (.arr (items.map .obj))) := by
  rcases h with rfl | ⟨dict, rfl, hdata⟩
  · rfl
  · unfold Json.get at hdata
    cases hfind : dict.find? fun e => e.1 = "data" with
    | none =>
        rw [hfind] at hdata
        exact absurd hdata (by simp)
    | some e =>
        rw [hfind] at hdata
        have hdata : e.2 = .arr (items.map .obj) := hdata
        simp only [dataOfReply, asDict, ne_eq, not_true_eq_false, if_false, ok_bind, hfind]
        rw [hdata]
        rfl

/-- The items are parsed one by one. -/
theorem candlesOfReply_holds (h : Holds reply items) : candlesOfReply coin n reply
    = (items.mapM fun d => candleFromDict coin d n) >>= fun parsed =>
        .ok (byTime (parsed.filterMap id)) := by
  have hitems : (items.map Json.obj).mapM (fun item => candleFromItem coin item n)
      = items.mapM fun d => candleFromDict coin d n := by
    rw [List.mapM_map]
    rfl
  unfold candlesOfReply
  rw [dataOfReply_holds h, ok_bind]
  show (items.map Json.obj).mapM (fun item => candleFromItem coin item n) >>= _ = _
  rw [hitems]
  rfl

/-- What `fetch_candles` returns: an exception costs everything. -/
theorem fetchCandles_returns (coin interval : String) (startTime endTime : Time) (inp : Input)
    (w : Client) : Returns (fetchCandles coin startTime endTime interval) [inp] w
      ((candlesOfReply coin (intervalToSeconds interval) inp.reply).toOption.getD []) := by
  refine ⟨(w.tick inp.elapsed).meet (.answered (upper coin) (toMs endTime) inp.reply), ?_⟩
  show some ((Coro.ofExcept (candlesOfReply coin (intervalToSeconds interval) inp.reply)).handle
    fun _ => pure [], _) = _
  cases candlesOfReply coin (intervalToSeconds interval) inp.reply <;> rfl

theorem Returns.unique {α : Type} {p : ClientProg α} {inputs : List Input} {w : Client} {a b : α}
    (h : Returns p inputs w a) (h' : Returns p inputs w b) : a = b := by
  obtain ⟨w₁, h⟩ := h
  obtain ⟨w₂, h'⟩ := h'
  rw [h] at h'
  exact Coro.pure.inj (congrArg Prod.fst (Option.some.inj h'))

/-- **A malformed item costs only itself**: `fetch_candles` returns the candles of the well-formed
items in order, the parser gives `None` for the others, and `backfill` keeps what is newer. -/
structure OnlyItself (coin interval : String) (items : List Payload) : Prop where
  fetch : ∀ reply, Holds reply items → ∀ startTime endTime inp w, inp.reply = reply →
    Returns (fetchCandles coin startTime endTime interval) [inp] w
      (byTime (items.filterMap (itemCandle coin (intervalToSeconds interval))))
  malformed : ∀ d ∈ items, ¬ WellFormed d →
    candleFromDict coin d (intervalToSeconds interval) = .ok none
  backfill : ∀ reply, Holds reply items → ∀ lastTimestamp clock inp w, inp.reply = reply →
    Returns (backfill coin lastTimestamp interval) [clock, inp] w
      ((byTime (items.filterMap (itemCandle coin (intervalToSeconds interval)))).filter
        fun c => lastTimestamp < c.timestamp)

/-- What is read as a whole was read item by item. -/
theorem perm_of_byTime {cs ds : List Candle} (h : byTime cs = byTime ds) : cs.Perm ds :=
  ((List.perm_insertionSort _ cs).symm.trans (List.Perm.of_eq h)).trans
    (List.perm_insertionSort _ ds)

/-- Next to a well-formed item, no item of the reply raises: that would cost its candle. -/
theorem OnlyItself.candlesOfReply_eq (h : OnlyItself coin interval items) {d : Payload}
    (hd : d ∈ items) (hwell : WellFormed d) :
    candlesOfReply coin (intervalToSeconds interval)
        (.response 200 (some (.arr (items.map .obj))))
      = .ok (byTime (items.filterMap (itemCandle coin (intervalToSeconds interval)))) := by
  have hreturns := h.fetch _ (Or.inl rfl) 0 0
    { reply := .response 200 (some (.arr (items.map .obj))) } sampleStream.world rfl
  have hcandles := hreturns.unique (fetchCandles_returns coin interval 0 0 _ _)
  dsimp only at hcandles
  cases hanswer : candlesOfReply coin (intervalToSeconds interval)
      (.response 200 (some (.arr (items.map .obj)))) with
  | error e =>
      -- `fetch_candles` returned nothing, and the candle of `d` is missing
      rw [hanswer] at hcandles
      have hnone : byTime (items.filterMap (itemCandle coin (intervalToSeconds interval)))
          = byTime [] := hcandles
      obtain ⟨c, hc⟩ := (wellFormed_iff coin (intervalToSeconds interval)).mp hwell
      have hmem : c ∈ items.filterMap (itemCandle coin (intervalToSeconds interval)) :=
        List.mem_filterMap.mpr ⟨d, hd, hc⟩
      rw [(perm_of_byTime hnone).eq_nil] at hmem
      exact absurd hmem List.not_mem_nil
  | ok candles =>
      rw [hanswer] at hcandles
      exact congrArg Except.ok hcandles.symm

/-- **Every item is harmless.** -/
theorem OnlyItself.harmless (h : OnlyItself coin interval items) {d : Payload} (hd : d ∈ items) :
    Harmless d := by
  by_cases hwell : WellFormed d
  · have hcandles := h.candlesOfReply_eq hd hwell
    have hmalformed := h.malformed
    generalize intervalToSeconds interval = n at hcandles hmalformed
    rw [candlesOfReply_holds (Or.inl rfl)] at hcandles
    -- no item raised, so what was read is a list of answers
    obtain ⟨parsed, hparsed, hsorted⟩ := bind_ok hcandles
    have hread := items_read hparsed
    have hpick : parsed.filterMap id = items.filterMap (itemRead coin n) := by
      have hmap := mapM_eq_map hread
      rw [hparsed] at hmap
      rw [Except.ok.inj hmap, List.filterMap_map]
      rfl
    have hquiet : ∀ d ∈ items, ¬ WellFormed d → itemRead coin n d = none := by
      intro d hd hnot
      unfold itemRead
      rw [hmalformed d hd hnot]
      rfl
    -- the sort forgets which item a candle came from; the zeros tell
    rw [hpick] at hsorted
    have hall := read_of_perm hquiet (perm_of_byTime (Except.ok.inj hsorted))
    rw [harmless_iff coin n, hread d hd, hall d hd]
  · refine ⟨fun hyes => absurd hyes hwell, fun _ => ?_⟩
    rw [← chosen_eq]
    exact candleFromDict_none_iff.mp (h.malformed d hd hwell)

end Requests

/-! ### A price that is not a number. -/

end Pulse.Ingest
