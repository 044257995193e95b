/-
  Pulse.Ingest.Fields
  ───────────────────
  **THE FIELDS OF A PAYLOAD.**

  `_candle_from_dict` chooses a value for each field, refuses a payload without a
  timestamp or a price, and converts the others.

    • `chosen`            — the values that it chooses, among the keys of each field,
    • `parse`             — the conversions,
    • `candleFromDict_eq` — the parser in these terms,
    • `parse_ok_iff`, `parse_refused_iff` — what the conversions give.
-/
import Pulse.Ingest.Candle

namespace Pulse.Ingest

/-! ## §1. Choice and conversion. -/

/-- A value for each field of a candle. -/
structure Fields where
  timestamp : Json
  openPrice : Json
  high : Json
  low : Json
  close : Json
  volume : Json

def Fields.prices (f : Fields) : List Json := [f.openPrice, f.high, f.low, f.close]

/-- The values that the parser chooses. -/
def chosen (data : List (String × Json)) : Fields where
  timestamp := getTimestampMs data
  openPrice := (Json.get data "o").or (Json.get data "open")
  high := (Json.get data "h").or (Json.get data "high")
  low := (Json.get data "l").or (Json.get data "low")
  close := (Json.get data "c").or (Json.get data "close")
  volume := ((Json.get data "v").or (Json.get data "volume")).or (.int 0)

/-- What a candle keeps of a volume. -/
def keptVolume (volume : Dec) : Option Dec := if volume.truthy then some volume else none

/-- The conversions. -/
def parse (symbol : String) (n : Nat) (f : Fields) : Except PyErr Candle := do
  let timestamp ← timestampOf f.timestamp
  let openPrice ← f.openPrice.toDec
  let high ← f.high.toDec
  let low ← f.low.toDec
  let close ← f.close.toDec
  let volume ← f.volume.toDec
  return Candle.init (upper symbol) timestamp openPrice high low close volume n

variable {symbol : String} {n : Nat} {f : Fields} {data : List (String × Json)} {c : Candle}

/-- **The parser**: choice, refusal, conversion. -/
theorem candleFromDict_eq : candleFromDict symbol data n
    = if (chosen data).timestamp.isNone then .ok none
      else if (chosen data).prices.any Json.isNone then .ok none
      else exceptValueOrType (parse symbol n (chosen data)) := by
  have hparse : parse symbol n (chosen data) = (do
      let ms ← (chosen data).timestamp.toInt
      let timestamp ← fromMs ms
      let openPrice ← (chosen data).openPrice.toDec
      let high ← (chosen data).high.toDec
      let low ← (chosen data).low.toDec
      let close ← (chosen data).close.toDec
      let volume ← (chosen data).volume.toDec
      return Candle.init (upper symbol) timestamp openPrice high low close volume n) := by
    unfold parse timestampOf
    cases (chosen data).timestamp.toInt <;> rfl
  have hany : (chosen data).prices.any Json.isNone
      = ((chosen data).openPrice.isNone || (chosen data).high.isNone || (chosen data).low.isNone
        || (chosen data).close.isNone) := by
    simp [Fields.prices, Bool.or_assoc]
  rw [hparse, hany]
  rfl

/-! ### Single values. -/

theorem isNone_iff {x : Json} : x.isNone = true ↔ x = .null := by
  cases x <;> simp [Json.isNone]

theorem isNone_of_truthy {x : Json} (hx : x.truthy = true) : x.isNone = false := by
  cases x <;> simp_all [Json.isNone, Json.truthy]

/-- What is not true and a number is zero. -/
theorem toDec_of_falsy {x : Json} {d : Dec} (hx : x.truthy = false) (hd : x.toDec = .ok d) :
    d = .fin 0 := by
  cases x with
  | null | bool b | arr items | obj entries => exact absurd hd (by simp [Json.toDec])
  | int i =>
      obtain rfl : i = 0 := by simpa [Json.truthy] using hx
      exact (Except.ok.inj hd).symm
  | num q =>
      have hx : (Double.ofRat q).truthy = false := hx
      obtain rfl := Except.ok.inj hd
      cases hq : Double.ofRat q with
      | inf neg =>
          rw [hq] at hx
          exact absurd hx (by simp [Double.truthy])
      | fin neg x =>
          rw [hq] at hx
          exact congrArg Dec.fin (Double.shown_of_falsy hx)
  | str s =>
      obtain rfl : s = "" := by simpa [Json.truthy] using hx
      have hraise : (Json.str "").toDec = .error Json.notNumeric := rfl
      rw [hraise] at hd
      exact absurd hd (by simp)

/-! ## §2. What the conversions give. -/

/-- `c` has the values of `f`. -/
structure Carries (f : Fields) (c : Candle) : Prop where
  timestamp : timestampOf f.timestamp = .ok c.timestamp
  openPrice : f.openPrice.toDec = .ok c.openPrice
  high : f.high.toDec = .ok c.high
  low : f.low.toDec = .ok c.low
  close : f.close.toDec = .ok c.close
  volume : f.volume.toDec.map keptVolume = .ok c.volume

theorem parse_ok_iff : parse symbol n f = .ok c ↔
    Carries f c ∧ c.symbol = upper symbol ∧ c.intervalSeconds = n := by
  constructor
  · intro h
    obtain ⟨timestamp, htimestamp, h⟩ := bind_ok h
    obtain ⟨openPrice, hopen, h⟩ := bind_ok h
    obtain ⟨high, hhigh, h⟩ := bind_ok h
    obtain ⟨low, hlow, h⟩ := bind_ok h
    obtain ⟨close, hclose, h⟩ := bind_ok h
    obtain ⟨volume, hvolume, h⟩ := bind_ok h
    obtain rfl := Except.ok.inj h
    refine ⟨⟨htimestamp, hopen, hhigh, hlow, hclose, ?_⟩, upper_upper symbol, rfl⟩
    rw [hvolume]
    rfl
  · rintro ⟨hcarries, hsymbol, hinterval⟩
    unfold parse
    rw [hcarries.timestamp, ok_bind, hcarries.openPrice, ok_bind, hcarries.high, ok_bind,
      hcarries.low, ok_bind, hcarries.close, ok_bind]
    -- the constructor drops a volume of zero
    have hkept := hcarries.volume
    cases hvolume : f.volume.toDec with
    | error e =>
        rw [hvolume] at hkept
        exact absurd hkept (by simp [Except.map])
    | ok volume =>
        rw [hvolume] at hkept
        have hkept : keptVolume volume = c.volume := Except.ok.inj hkept
        have hsame : Candle.init (upper symbol) c.timestamp c.openPrice c.high c.low c.close
            volume n = ⟨upper symbol, c.timestamp, c.openPrice, c.high, c.low, c.close,
              keptVolume volume, n⟩ := by
          unfold Candle.init
          rw [upper_upper]
          rfl
        rw [ok_bind, hsame, hkept, ← hsymbol, ← hinterval]
        rfl

theorem forall_prices {P : Json → Prop} : (∀ p ∈ f.prices, P p) ↔
    P f.openPrice ∧ P f.high ∧ P f.low ∧ P f.close := by
  simp [Fields.prices]

/-- What is parsed was convertible. -/
theorem Carries.prices (h : Carries f c) : ∀ p ∈ f.prices, ∃ d, p.toDec = .ok d :=
  forall_prices.mpr ⟨⟨_, h.openPrice⟩, ⟨_, h.high⟩, ⟨_, h.low⟩, ⟨_, h.close⟩⟩

/-- What is convertible is parsed. -/
theorem exists_parse (symbol : String) (n : Nat) {t : Time} {volume : Option Dec}
    (ht : timestampOf f.timestamp = .ok t) (hprices : ∀ p ∈ f.prices, ∃ d, p.toDec = .ok d)
    (hvolume : f.volume.toDec.map keptVolume = .ok volume) :
    ∃ c, parse symbol n f = .ok c ∧ c.volume = volume := by
  obtain ⟨⟨o, ho⟩, ⟨hi, hhi⟩, ⟨lo, hlo⟩, cl, hcl⟩ := forall_prices.mp hprices
  exact ⟨⟨upper symbol, t, o, hi, lo, cl, volume, n⟩,
    parse_ok_iff.mpr ⟨⟨ht, ho, hhi, hlo, hcl, hvolume⟩, rfl, rfl⟩, rfl⟩

/-- A `ValueError` or a `TypeError`. -/
def Caught {α : Type} (r : Except PyErr α) : Prop :=
  ∃ e, r = .error e ∧ (e.cls = .valueError ∨ e.cls = .typeError)

theorem exceptValueOrType_none_iff {α : Type} {r : Except PyErr α} :
    exceptValueOrType r = .ok none ↔ Caught r := by
  unfold Caught
  cases r with
  | ok a => simp [exceptValueOrType]
  | error e =>
      show (if e.cls = .valueError ∨ e.cls = .typeError then Except.ok none
        else Except.error e) = Except.ok none ↔ _
      constructor
      · intro h
        split at h
        next hcls => exact ⟨e, rfl, hcls⟩
        next => exact absurd h (by simp)
      · rintro ⟨e', he, hcls⟩
        obtain rfl := Except.error.inj he
        rw [if_pos hcls]

theorem exceptValueOrType_some_iff {α : Type} {r : Except PyErr α} {a : α} :
    exceptValueOrType r = .ok (some a) ↔ r = .ok a := by
  constructor
  · exact exceptValueOrType_some
  · rintro rfl
    rfl

/-- `Decimal(str(x))` is refused for an integer that is too long. -/
theorem caught_toDec_iff (x : Json) : Caught x.toDec ↔ x.tooLong = true := by
  have hlong : ∀ {α : Type}, Caught (.error Json.tooManyDigits : Except PyErr α) :=
    ⟨_, rfl, Or.inl rfl⟩
  have hnumeric : ∀ {α : Type}, ¬ Caught (.error Json.notNumeric : Except PyErr α) := by
    rintro α ⟨e, he, hcls⟩
    obtain rfl := Except.error.inj he
    exact absurd hcls (by decide)
  have hok : ∀ {α : Type} {a : α}, ¬ Caught (.ok a : Except PyErr α) :=
    fun ⟨e, he, _⟩ => absurd he (by simp)
  cases x with
  | null | bool b => exact iff_of_false hnumeric (by simp [Json.tooLong])
  | num q => exact iff_of_false hok (by simp [Json.tooLong])
  | str s =>
      refine iff_of_false ?_ (by simp [Json.tooLong])
      simp only [Json.toDec]
      cases decOfStr s with
      | none => exact hnumeric
      | some d => exact hok
  | int i =>
      show Caught (if (Json.int i).tooLong = true then _ else _) ↔ (Json.int i).tooLong = true
      split
      next h => exact iff_of_true hlong h
      next h => exact iff_of_false hok h
  | arr items =>
      show Caught (.error (if Json.itemsTooLong items then _ else _)) ↔
        Json.itemsTooLong items = true
      split
      next h => exact iff_of_true hlong h
      next h => exact iff_of_false hnumeric h
  | obj entries =>
      show Caught (.error (if Json.entriesTooLong entries then _ else _)) ↔
        Json.entriesTooLong entries = true
      split
      next h => exact iff_of_true hlong h
      next h => exact iff_of_false hnumeric h

theorem caught_bind {α β : Type} {r : Except PyErr α} {k : α → Except PyErr β} :
    Caught (r >>= k) ↔ Caught r ∨ ∃ a, r = .ok a ∧ Caught (k a) := by
  cases r with
  | ok a =>
      have hnot : ¬ Caught (.ok a : Except PyErr α) := fun ⟨e, he, _⟩ => absurd he (by simp)
      rw [ok_bind, or_iff_right hnot]
      exact ⟨fun h => ⟨a, rfl, h⟩, fun ⟨_, ha, h⟩ => Except.ok.inj ha ▸ h⟩
  | error e =>
      refine Iff.trans ?_ (or_iff_left fun ⟨_, ha, _⟩ => absurd ha (by simp)).symm
      constructor
      · rintro ⟨e', he, hcls⟩
        exact ⟨e', congrArg _ (Except.error.inj he), hcls⟩
      · rintro ⟨e', he, hcls⟩
        exact ⟨e', congrArg _ (Except.error.inj he), hcls⟩

/-- The first value that is no number is an integer that is too long. -/
def TooLongFirst : List Json → Prop
  | [] => False
  | x :: xs => x.tooLong = true ∨ (∃ d, x.toDec = .ok d) ∧ TooLongFirst xs

theorem caught_toDec_bind {α : Type} {x : Json} {xs : List Json} {k : Dec → Except PyErr α}
    (hk : ∀ d, Caught (k d) ↔ TooLongFirst xs) :
    Caught (x.toDec >>= k) ↔ TooLongFirst (x :: xs) := by
  rw [caught_bind, caught_toDec_iff]
  refine or_congr Iff.rfl ?_
  simp only [hk, ← exists_and_right]

/-- **What is refused quietly**: a timestamp, or the digits of an integer. -/
theorem parse_refused_iff : exceptValueOrType (parse symbol n f) = .ok none ↔
    Caught (timestampOf f.timestamp) ∨
      (∃ t, timestampOf f.timestamp = .ok t) ∧ TooLongFirst (f.prices ++ [f.volume]) := by
  rw [exceptValueOrType_none_iff]
  refine caught_bind.trans (or_congr Iff.rfl ?_)
  rw [← exists_and_right]
  refine exists_congr fun timestamp => and_congr_right fun _ => ?_
  -- value by value, in the order of the constructor's arguments
  refine caught_toDec_bind fun openPrice => caught_toDec_bind fun high => ?_
  refine caught_toDec_bind fun low => caught_toDec_bind fun close => ?_
  refine caught_toDec_bind fun volume => ?_
  refine iff_of_false ?_ id
  rintro ⟨e, he, -⟩
  exact absurd he (by simp [pure, Except.pure])

end Pulse.Ingest
