/-
  Pulse.Ingest.Sourced
  ────────────────────
  **NO CANDLE IS INVENTED.**

  The client yields what `_candle_from_dict` made of a payload that the exchange
  sent: an item of a REST reply, or the data of a live message.

    • `candlesOfReply_payload`, `latestOfReply_newest` — what a reply gives is
                            parsed from one of its objects, the latest from one
                            whose timestamp none exceeds,
    • `Sourced.run` — along every run, in both modes, so is every candle yielded.
-/
import Pulse.Ingest.Rounds

namespace Pulse.Ingest

open Pulse.Async Pulse.Ingest.Client

/-! ## §1. What a reply gives. -/

/-- One of the payloads parses to the candle. -/
def ParsedFrom (payloads : List Payload) (c : Candle) : Prop :=
  ∃ data ∈ payloads, candleFromDict c.symbol data 900 = .ok (some c)

theorem ParsedFrom.mono {payloads payloads' : List Payload} {c : Candle}
    (h : ParsedFrom payloads c) (hsub : payloads ⊆ payloads') : ParsedFrom payloads' c := by
  obtain ⟨data, hdata, hparsed⟩ := h
  exact ⟨data, hsub hdata, hparsed⟩

/-- The items that are iterated over, when one of them is a dictionary, are those of a
list, and the dictionary is among the payloads of the reply. -/
theorem mem_payloads {reply : RestReply} {data item : Json} {items : List Json} {dict : Payload}
    (hdata : dataOfReply reply = .ok (some data)) (hitems : iterate data = .ok items)
    (hitem : item ∈ items) (hdict : asDict item = .ok dict) : dict ∈ reply.payloads := by
  cases data with
  | arr elements =>
      obtain rfl := Except.ok.inj hitems
      show dict ∈ RestReply.payloads reply
      unfold RestReply.payloads
      rw [hdata]
      exact List.mem_filterMap.mpr ⟨item, hitem, by rw [hdict]; rfl⟩
  | str s =>
      -- characters are not dictionaries
      obtain rfl := Except.ok.inj hitems
      obtain ⟨ch, -, rfl⟩ := List.mem_map.mp hitem
      exact absurd hdict (by simp [asDict])
  | obj entries =>
      obtain rfl := Except.ok.inj hitems
      obtain ⟨entry, -, rfl⟩ := List.mem_map.mp hitem
      exact absurd hdict (by simp [asDict])
  | null => exact absurd hitems (by simp [iterate])
  | bool _ => exact absurd hitems (by simp [iterate])
  | int _ => exact absurd hitems (by simp [iterate])
  | num _ => exact absurd hitems (by simp [iterate])

/-- The payloads of a reply are the dictionaries among its items. -/
theorem payloads_mem {reply : RestReply} {data : Json} {items : List Json}
    (hdata : dataOfReply reply = .ok (some data)) (hitems : iterate data = .ok items) :
    ∀ dict ∈ reply.payloads, ∃ item ∈ items, asDict item = .ok dict := by
  intro dict hdict
  unfold RestReply.payloads at hdict
  rw [hdata] at hdict
  cases data with
  | arr elements =>
      obtain rfl := Except.ok.inj hitems
      obtain ⟨item, hitem, hsome⟩ := List.mem_filterMap.mp hdict
      refine ⟨item, hitem, ?_⟩
      cases h : asDict item with
      | ok d =>
          rw [h] at hsome
          exact congrArg Except.ok (Option.some.inj hsome)
      | error e =>
          rw [h] at hsome
          exact absurd hsome (by simp [Except.toOption])
  | _ => exact absurd hdict (by simp)

/-- An item that parses is a dictionary, and the candle keeps its symbol. -/
theorem candleFromItem_some {coin : String} {item : Json} {c : Candle}
    (h : candleFromItem coin item 900 = .ok (some c)) :
    ∃ dict, asDict item = .ok dict ∧ candleFromDict c.symbol dict 900 = .ok (some c) := by
  obtain ⟨dict, hdict, hparsed⟩ := bind_ok h
  refine ⟨dict, hdict, ?_⟩
  rw [(candleFromDict_some hparsed).1, candleFromDict_upper]
  exact hparsed

/-- **`fetch_candles`** returns candles of its reply. -/
theorem candlesOfReply_payload {coin : String} {reply : RestReply} {candles : List Candle}
    (h : candlesOfReply coin 900 reply = .ok candles) :
    ∀ c ∈ candles, ParsedFrom reply.payloads c := by
  intro c hc
  unfold candlesOfReply at h
  obtain ⟨data, hdata, h⟩ := bind_ok h
  cases data with
  | none =>
      obtain rfl := Except.ok.inj h
      exact absurd hc (by simp)
  | some data =>
      obtain ⟨items, hitems, h⟩ := bind_ok h
      obtain ⟨parsed, hparsed, h⟩ := bind_ok h
      obtain rfl := Except.ok.inj h
      rw [List.mem_insertionSort, List.mem_filterMap] at hc
      obtain ⟨_, hc, rfl⟩ := hc
      obtain ⟨item, hitem, hcandle⟩ := mapM_ok hparsed _ hc
      obtain ⟨dict, hdict, hcandle⟩ := candleFromItem_some hcandle
      exact ⟨dict, mem_payloads hdata hitems hitem hdict, hcandle⟩

/-- The value that `sorted` compares. -/
def sortKey (data : Payload) : Json := (getTimestampMs data).or (.int 0)

/-- No object among `payloads` has a greater timestamp. -/
def Newest (payloads : List Payload) (data : Payload) : Prop :=
  ∀ d ∈ payloads, lessThan (sortKey data) (sortKey d) ≠ .ok true

/-- What is not less than something is not less than what precedes it. -/
theorem lessThan_trans {a b c : Json} (hac : lessThan a c = .ok true)
    (hab : lessThan a b = .ok false) : lessThan b c = .ok true := by
  unfold lessThan at *
  cases ha : number a with
  | some x =>
      -- a number is compared with numbers only
      cases hb : number b with
      | none => cases a <;> cases b <;> simp_all [number]
      | some y =>
          cases hc : number c with
          | none => cases a <;> cases c <;> simp_all [number]
          | some z =>
              simp only [ha, hb, hc, Except.ok.injEq, decide_eq_true_eq, decide_eq_false_iff_not,
                not_lt] at hac hab ⊢
              exact hab.trans_lt hac
  | none =>
      cases a with
      | str s =>
          cases b with
          | str t =>
              cases c with
              | str u =>
                  simp only [number, Except.ok.injEq, decide_eq_true_eq,
                    decide_eq_false_iff_not] at hac hab ⊢
                  by_contra hbc
                  have hca : u ≤ s := String.le_trans (String.not_lt.mp hbc) (String.not_lt.mp hab)
                  exact String.not_lt.mpr hca hac
              | _ => simp [number] at hac
          | _ => simp [number] at hab
      | _ => simp_all [number]

theorem lessThan_asymm {a b : Json} (hab : lessThan a b = .ok true) :
    lessThan b a ≠ .ok true := by
  intro hba
  unfold lessThan at hab hba
  cases ha : number a with
  | some x =>
      cases hb : number b with
      | none => cases a <;> cases b <;> simp_all [number]
      | some y =>
          simp only [ha, hb, Except.ok.injEq, decide_eq_true_eq] at hab hba
          exact lt_asymm hab hba
  | none =>
      cases a with
      | str s =>
          cases b with
          | str t =>
              simp only [number, Except.ok.injEq, decide_eq_true_eq] at hab hba
              exact String.lt_asymm hab hba
          | _ => simp [number] at hab
      | _ => simp_all [number]

/-- The fold over the sort keys ends with an element that none before or behind exceeds. -/
theorem foldlM_latest {keyed seen : List (Json × Json)} {first latest : Json × Json}
    (hfirst : first ∈ seen) (hseen : ∀ p ∈ seen, lessThan first.1 p.1 ≠ .ok true)
    (h : keyed.foldlM (fun best x => do
      return if ← lessThan x.1 best.1 then best else x) first = .ok latest) :
    latest ∈ seen ++ keyed ∧ ∀ p ∈ seen ++ keyed, lessThan latest.1 p.1 ≠ .ok true := by
  induction keyed generalizing first seen with
  | nil =>
      obtain rfl := Except.ok.inj h
      rw [List.append_nil]
      exact ⟨hfirst, hseen⟩
  | cons x rest ih =>
      rw [List.foldlM_cons] at h
      obtain ⟨best, hbest, h⟩ := bind_ok h
      obtain ⟨less, hless, hbest⟩ := bind_ok hbest
      have hbest := Except.ok.inj hbest
      have hsplit : seen ++ x :: rest = (seen ++ [x]) ++ rest := by simp
      rw [hsplit]
      cases less with
      | true =>
          -- the one so far stays: it exceeds `x`
          obtain rfl : first = best := hbest
          refine ih (List.mem_append_left _ hfirst) (fun p hp => ?_) h
          rcases List.mem_append.mp hp with hp | hp
          · exact hseen p hp
          · rw [List.mem_singleton.mp hp]
            exact lessThan_asymm hless
      | false =>
          obtain rfl : x = best := hbest
          refine ih (List.mem_append_right _ (List.mem_singleton_self x)) (fun p hp hlt => ?_) h
          rcases List.mem_append.mp hp with hp | hp
          · exact hseen p hp (lessThan_trans hlt hless)
          · rw [List.mem_singleton.mp hp] at hlt
            exact lessThan_asymm hlt hlt

/-- **The latest item** is one that none exceeds. -/
theorem latestItem_newest {items : List Json} {item : Json} {dict : Payload}
    (h : latestItem items = .ok item) (hdict : asDict item = .ok dict) :
    item ∈ items ∧
      ∀ x ∈ items, ∀ d, asDict x = .ok d → lessThan (sortKey dict) (sortKey d) ≠ .ok true := by
  unfold latestItem at h
  obtain ⟨keyed, hkeyed, h⟩ := bind_ok h
  have hkept : ∀ p ∈ keyed, p.2 ∈ items ∧ ∃ d, asDict p.2 = .ok d ∧ p.1 = sortKey d := by
    intro p hp
    obtain ⟨x, hx, hpair⟩ := mapM_ok hkeyed p hp
    obtain ⟨d, hd, hpair⟩ := bind_ok hpair
    obtain rfl := Except.ok.inj hpair
    exact ⟨hx, d, hd, rfl⟩
  have hkeys : ∀ x ∈ items, ∀ d, asDict x = .ok d → (sortKey d, x) ∈ keyed := by
    intro x hx d hd
    obtain ⟨p, hp, hpair⟩ := mapM_mem hkeyed x hx
    rw [hd] at hpair
    obtain rfl := Except.ok.inj hpair
    exact hp
  cases keyed with
  | nil => exact absurd h (by simp [throw, throwThe, MonadExceptOf.throw])
  | cons first rest =>
      obtain ⟨latest, hlatest, h⟩ := bind_ok h
      obtain rfl := Except.ok.inj h
      obtain ⟨hmem, hgreatest⟩ := foldlM_latest (List.mem_singleton_self first)
        (fun p hp hlt => by
          rw [List.mem_singleton.mp hp] at hlt
          exact lessThan_asymm hlt hlt) hlatest
      obtain ⟨hitem, d, hd, hkey⟩ := hkept latest hmem
      obtain rfl := Except.ok.inj (hd.symm.trans hdict)
      refine ⟨hitem, fun x hx d' hd' => ?_⟩
      rw [← hkey]
      exact hgreatest _ (hkeys x hx d' hd')

/-- **`fetch_latest_candle`** returns a candle of its reply, of an object that none exceeds. -/
theorem latestOfReply_newest {coin : String} {reply : RestReply} {c : Candle}
    (h : latestOfReply coin reply = .ok (some c)) :
    ∃ data ∈ reply.payloads, candleFromDict c.symbol data 900 = .ok (some c) ∧
      Newest reply.payloads data := by
  unfold latestOfReply at h
  obtain ⟨data, hdata, h⟩ := bind_ok h
  cases data with
  | none => exact absurd h (by simp [pure, Except.pure])
  | some data =>
      simp only at h
      split at h
      next => exact absurd h (by simp [pure, Except.pure])
      next =>
        obtain ⟨items, hitems, h⟩ := bind_ok h
        obtain ⟨item, hitem, h⟩ := bind_ok h
        obtain ⟨dict, hdict, hcandle⟩ := candleFromItem_some h
        obtain ⟨hmem, hnewest⟩ := latestItem_newest hitem hdict
        refine ⟨dict, mem_payloads hdata hitems hmem hdict, hcandle, fun d hd => ?_⟩
        obtain ⟨x, hx, hxd⟩ := payloads_mem hdata hitems d hd
        exact hnewest x hx d hxd

theorem latestOfReply_payload {coin : String} {reply : RestReply} {c : Candle}
    (h : latestOfReply coin reply = .ok (some c)) : ParsedFrom reply.payloads c := by
  obtain ⟨data, hdata, hparsed, -⟩ := latestOfReply_newest h
  exact ⟨data, hdata, hparsed⟩

/-! ## §2. What the client yields. -/

/-- Every candle yielded was parsed from a payload that was received. -/
def Sourced (w : Client) : Prop := ∀ y ∈ w.yielded, ParsedFrom w.payloads y.candle

variable {mode : Mode} {w w' : Client} {c : Candle}

theorem Sourced.quiet (h : Sourced w) (hq : Quiet w w') : Sourced w' := by
  intro y hy
  rw [hq.yielded] at hy
  exact (h y hy).mono hq.payloads.subset

/-- **A yield** of a candle that was parsed. -/
theorem Sourced.emit {coin : String} {inp : Input} (h : Sourced w)
    (hc : ParsedFrom w.payloads c)
    (hperf : perform (.emit coin c) inp w = some ((), w')) :
    Sourced w' ∧ w'.payloads = w.payloads := by
  obtain rfl := (Prod.mk.inj (Option.some.inj hperf)).2
  refine ⟨fun y hy => ?_, rfl⟩
  rcases List.mem_append.mp hy with hy | hy
  · exact h y hy
  · rw [List.mem_singleton.mp hy]
    exact hc

/-- What a reply gives is among the payloads once the reply is there. -/
theorem ParsedFrom.answered {coin : String} {endMs : Int} {inp : Input}
    (h : ParsedFrom inp.reply.payloads c) :
    ParsedFrom (w.answered coin endMs inp).payloads c := by
  refine h.mono ?_
  unfold Client.answered
  rw [payloads_meet]
  exact List.subset_append_right _ _

theorem Sourced.keeper {symbols : List String} :
    Keeper (fun _ _ _ => True) Sourced mode symbols where
  quiet := fun _ _ h hq => h.quiet hq
  backfill := by
    intro _ coin _ w h
    refine keeps_backfillCoin
      (B := fun missed u => Sourced u ∧ ∀ c ∈ missed, ParsedFrom u.payloads c)
      (fun _ _ h hq => h.quiet hq) h (fun _ _ hB => hB.1) ?_ ?_
    · -- the reply is kept with what was received, and its candles are read off it
      intro last inp candles _ _ hcandles
      refine ⟨h.quiet (quiet_meet w _ _), fun c hc => ?_⟩
      have hc : c ∈ candles := (List.mem_filter.mp hc).1
      exact (candlesOfReply_payload hcandles c hc).answered
    · intro c missed u u' inp hB hperf
      obtain ⟨hu', hpayloads⟩ := hB.1.emit (hB.2 c List.mem_cons_self) hperf
      refine ⟨hu', fun d hd => ?_⟩
      rw [hpayloads]
      exact hB.2 d (List.mem_cons_of_mem _ hd)
  message := by
    intro _ w inp msg h _ hframe u hperf
    obtain rfl := (Prod.mk.inj (Option.some.inj hperf)).2
    have hu : Sourced ((w.tick inp.elapsed).hear inp.frame) := h.quiet (quiet_hear w _ _)
    refine keeps_onMessage hu fun coin c inp' v hmessage hperf => (hu.emit ?_ hperf).1
    -- the candle of the frame, under the symbol in upper case
    obtain ⟨data, hdata, -, hparsed, -, -⟩ := handleMessage_some hmessage
    refine ⟨data, ?_, ?_⟩
    · rw [payloads_hear, hframe]
      refine List.mem_append_right _ ?_
      show data ∈ (candlePayload msg).toList
      rw [hdata]
      exact List.mem_singleton_self data
    · rw [(candleFromDict_some hparsed).1, candleFromDict_upper]
      exact hparsed
  poll := by
    intro _ coin _ w h
    refine keeps_pollCoin (fun _ _ h hq => h.quiet hq) h ?_
    intro startMs endMs inp c inp' u _ hlatest _ hperf
    exact ((h.quiet (quiet_meet w _ _)).emit (latestOfReply_payload hlatest).answered hperf).1

/-- **Along every run of the stream**, in both modes, every candle yielded was received. -/
theorem Sourced.run {symbols : List String} {P : Client.Stream → Loop.Action Input → Prop}
    {c₀ c : Client.Stream} (h₀ : Start mode c₀)
    (hrun : Reaches (Client.step symbols) P c₀ c) : Sourced c.world := by
  refine Sourced.keeper.run h₀ (fun y hy => ?_) (hrun.mono fun d a _ => ?_)
  · rw [h₀.yielded] at hy
    exact absurd hy (by simp)
  · cases a with
    | again => trivial
    | answer inp =>
        cases htask : d.task <;> simp [Loop.Meets, htask]

end Pulse.Ingest
