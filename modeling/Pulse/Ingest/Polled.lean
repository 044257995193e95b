/-
  Pulse.Ingest.Polled
  ───────────────────
  **WHAT POLLS MISS.**

  In `poll` mode a request shows the newest candle of a symbol, closed or not, and the stream
  yields it if it is newer than all before.  It yields each bar that a request has shown, once,
  and no bar is left out as long as the requests that succeed come a bar apart at most.

    • `Polled.perform` — the handler, keeping what each request has shown,
    • `CaughtUpTo`     — what was yielded are the record highs of what was shown,
    • `polls_gap_free` — every run in `poll` mode.
-/
import Pulse.Core.Peaks
import Pulse.Ingest.Paced

namespace Pulse.Ingest.Client

open Pulse.Async Pulse.Peaks

/-! ## §1. What requests show. -/

/-- A request that succeeded: the symbol, the candle that it showed, and the time of the reply. -/
structure Glance where
  coin : String
  candle : Candle
  time : Time
  deriving DecidableEq, Repr

/-- What the reply to a request for `coin` shows. -/
def glanced (coin : String) (reply : RestReply) (time : Time) : List Glance :=
  match latestOfReply coin reply with
  | .ok (some candle) => [⟨coin, candle, time⟩]
  | _ => []

/-- The client, and what its requests have shown. -/
structure Polled where
  client : Client
  glances : List Glance

namespace Polled

/-- The record after operation `o` was answered. -/
def after (s : Polled) (inp : Input) (w : Client) : Op → Polled
  | .post coin _ _ _ => ⟨w, s.glances ++ glanced coin inp.reply w.clock⟩
  | _ => { s with client := w }

/-- Answer operation `o`. -/
def perform (o : Op) (inp : Input) (s : Polled) : Option (Resp o × Polled) :=
  (Client.perform o inp s.client).map fun out => (out.1, s.after inp out.2 o)

end Polled

/-- The stream with that record. -/
abbrev polledStep (symbols : List String) :
    Loop Resp PyErr Phase Polled → Loop.Action Input → Option (Loop Resp PyErr Phase Polled) :=
  Loop.step Polled.perform (stream symbols)

/-- The candles that requests for `coin` have shown. -/
def shown (coin : String) (glances : List Glance) : List Candle :=
  (glances.filter fun g => g.coin = coin).map Glance.candle

/-- The candles of `coin` that were yielded. -/
def yieldedOf (coin : String) (w : Client) : List Candle :=
  (w.yielded.map Yielded.candle).filter fun c => c.symbol = coin

/-- The opening time of the bar at time `t`. -/
def barOf (t : Time) : Time := t - t % seconds 900

/-- The request showed the bar of its time, as yet unfinished. -/
def Glance.Current (g : Glance) : Prop := g.candle.timestamp = barOf g.time

instance (g : Glance) : Decidable g.Current :=
  inferInstanceAs (Decidable (g.candle.timestamp = barOf g.time))

/-- Requests that succeeded one after the other are a bar apart at most. -/
def Frequent (glances : List Glance) : Prop :=
  glances.IsChain fun g g' => g'.time ≤ g.time + seconds 900

instance (glances : List Glance) : Decidable (Frequent glances) :=
  inferInstanceAs (Decidable (glances.IsChain fun g g' => g'.time ≤ g.time + seconds 900))

/-! ## §2. Record highs. -/

theorem above_isNewer (last : Option Time) (candle : Candle) :
    above last candle.timestamp = isNewer last candle := by
  cases last <;> rfl

variable {seeds : String → Option Time} {gs : List Glance} {g : Glance} {w w' : Client}

/-- The stream is done with the requests `gs`: it yielded what was newer than all before. -/
structure CaughtUpTo (seeds : String → Option Time) (gs : List Glance) (w : Client) : Prop where
  yielded : ∀ coin, yieldedOf coin w = highs Candle.timestamp (seeds coin) (shown coin gs)
  last : ∀ coin, w.lastCandleTs coin = top Candle.timestamp (seeds coin) (shown coin gs)

theorem CaughtUpTo.quiet (h : CaughtUpTo seeds gs w) (hq : Quiet w w') :
    CaughtUpTo seeds gs w' := by
  refine ⟨?_, ?_⟩
  · intro coin
    unfold yieldedOf
    rw [hq.yielded]
    exact h.yielded coin
  · intro coin
    rw [hq.lastCandleTs]
    exact h.last coin

theorem shown_append_self : shown g.coin (gs ++ [g]) = shown g.coin gs ++ [g.candle] := by
  unfold shown
  rw [List.filter_append, List.map_append]
  simp

theorem shown_append_other {coin : String} (h : g.coin ≠ coin) :
    shown coin (gs ++ [g]) = shown coin gs := by
  unfold shown
  rw [List.filter_append, List.map_append]
  simp [h]

/-- A candle that is not newer is passed over. -/
theorem CaughtUpTo.skip (h : CaughtUpTo seeds gs w)
    (hold : isNewer (w.lastCandleTs g.coin) g.candle = false) :
    CaughtUpTo seeds (gs ++ [g]) w := by
  rw [h.last, ← above_isNewer] at hold
  refine ⟨?_, ?_⟩
  · intro coin
    by_cases hcoin : g.coin = coin
    · subst hcoin
      rw [shown_append_self, (highs_append_below hold).1]
      exact h.yielded g.coin
    · rw [shown_append_other hcoin]
      exact h.yielded coin
  · intro coin
    by_cases hcoin : g.coin = coin
    · subst hcoin
      rw [shown_append_self, (highs_append_below hold).2]
      exact h.last g.coin
    · rw [shown_append_other hcoin]
      exact h.last coin

/-- **A newer one is yielded.** -/
theorem CaughtUpTo.emit (h : CaughtUpTo seeds gs w) (hsymbol : g.candle.symbol = g.coin)
    (hnew : isNewer (w.lastCandleTs g.coin) g.candle = true) {inp : Input}
    (hperf : perform (.emit g.coin g.candle) inp w = some ((), w')) :
    CaughtUpTo seeds (gs ++ [g]) w' := by
  rw [h.last, ← above_isNewer] at hnew
  obtain ⟨-, rfl⟩ := Prod.mk.inj (Option.some.inj hperf)
  refine ⟨?_, ?_⟩
  · intro coin
    show ((w.yielded ++ [_]).map Yielded.candle).filter _ = _
    rw [List.map_append, List.filter_append]
    show yieldedOf coin w ++ [g.candle].filter _ = _
    by_cases hcoin : g.coin = coin
    · subst hcoin
      rw [shown_append_self, (highs_append_above hnew).1, ← h.yielded]
      simp [hsymbol]
    · rw [shown_append_other hcoin, ← h.yielded]
      simp [hsymbol, hcoin]
  · intro coin
    by_cases hcoin : g.coin = coin
    · subst hcoin
      rw [shown_append_self, (highs_append_above hnew).2]
      exact Function.update_self _ _ _
    · rw [shown_append_other hcoin]
      exact (Function.update_of_ne (Ne.symm hcoin) _ _).trans (h.last coin)

/-! ## §3. One poll. -/

/-- Requests succeeded one after the other. -/
structure Ordered (s : Polled) : Prop where
  rising : s.glances.Pairwise fun g g' => g.time ≤ g'.time
  past : ∀ g ∈ s.glances, g.time ≤ s.client.clock

/-- All that was shown is dealt with. -/
structure Even (seeds : String → Option Time) (s : Polled) : Prop where
  ordered : Ordered s
  caught : CaughtUpTo seeds s.glances s.client

/-- All but the candle that the newest request showed. -/
structure CatchingUp (seeds : String → Option Time) (g : Glance) (s : Polled) : Prop where
  ordered : Ordered s
  caught : ∃ gs, s.glances = gs ++ [g] ∧ CaughtUpTo seeds gs s.client

/-- **The invariant**: the stream is one request behind at most. -/
structure Behind (seeds : String → Option Time) (s : Polled) : Prop where
  ordered : Ordered s
  caught : ∃ gs, (s.glances = gs ∨ ∃ g, s.glances = gs ++ [g]) ∧ CaughtUpTo seeds gs s.client

variable {s s' : Polled}

theorem Even.behind (h : Even seeds s) : Behind seeds s :=
  ⟨h.ordered, s.glances, Or.inl rfl, h.caught⟩

theorem CatchingUp.behind (h : CatchingUp seeds g s) : Behind seeds s := by
  obtain ⟨gs, hgs, hcaught⟩ := h.caught
  exact ⟨h.ordered, gs, Or.inr ⟨g, hgs⟩, hcaught⟩

theorem Ordered.later (h : Ordered s) (hglances : s'.glances = s.glances)
    (hclock : s.client.clock ≤ s'.client.clock) : Ordered s' := by
  refine ⟨?_, ?_⟩
  · rw [hglances]
    exact h.rising
  · rw [hglances]
    intro g hg
    exact (h.past g hg).trans hclock

/-- A request succeeds. -/
theorem Ordered.glance (h : Ordered s) (hglances : s'.glances = s.glances ++ [g])
    (hclock : s.client.clock ≤ s'.client.clock) (htime : g.time = s'.client.clock) :
    Ordered s' := by
  refine ⟨?_, ?_⟩
  · rw [hglances]
    refine List.pairwise_append.mpr ⟨h.rising, List.pairwise_singleton _ _, ?_⟩
    intro old hold new hnew
    obtain rfl := List.mem_singleton.mp hnew
    rw [htime]
    exact (h.past old hold).trans hclock
  · rw [hglances]
    intro new hnew
    rcases List.mem_append.mp hnew with hold | hnew
    · exact (h.past new hold).trans hclock
    · obtain rfl := List.mem_singleton.mp hnew
      exact le_of_eq htime

theorem Even.later (h : Even seeds s) (hglances : s'.glances = s.glances)
    (hquiet : Quiet s.client s'.client) : Even seeds s' := by
  refine ⟨h.ordered.later hglances hquiet.clock, ?_⟩
  rw [hglances]
  exact h.caught.quiet hquiet

theorem CatchingUp.later (h : CatchingUp seeds g s) (hglances : s'.glances = s.glances)
    (hquiet : Quiet s.client s'.client) : CatchingUp seeds g s' := by
  refine ⟨h.ordered.later hglances hquiet.clock, ?_⟩
  rw [hglances]
  obtain ⟨gs, hgs, hcaught⟩ := h.caught
  exact ⟨gs, hgs, hcaught.quiet hquiet⟩

namespace Polled

/-- An operation that is no request shows nothing. -/
theorem perform_glances {o : Op} {inp : Input} {r : Resp o} (ho : NotPost o)
    (h : Polled.perform o inp s = some (r, s')) :
    s'.glances = s.glances ∧ Client.perform o inp s.client = some (r, s'.client) := by
  obtain ⟨⟨r₀, w⟩, hperf, hout⟩ := Option.map_eq_some_iff.mp h
  obtain ⟨rfl, rfl⟩ := Prod.mk.inj hout
  cases o <;> first | exact ho.elim | exact ⟨rfl, hperf⟩

end Polled

variable (seeds) in
/-- `p` raises nothing and stays one request behind at most. -/
abbrev keepsUp {α : Type} (Q : α → Polled → Prop) (p : ClientProg α) (s : Polled) : Prop :=
  Coro.wp Polled.perform (fun _ _ _ => True) Eq (fun _ s' => Behind seeds s') Q
    (fun _ _ => False) p s

/-- An operation that neither asks nor yields. -/
theorem keepsUp_even {α : Type} {Q : α → Polled → Prop} {o : Op} {f : Resp o → ClientProg α}
    (ho : NotPost o) (hq : o.quiet) (h : Even seeds s)
    (hf : ∀ r s', Even seeds s' → keepsUp seeds Q (f r) s') :
    keepsUp seeds Q (.await o f) s := by
  intro t hs inp r t' _ hperf
  subst hs
  obtain ⟨hglances, hclient⟩ := Polled.perform_glances ho hperf
  have ht' := h.later hglances (perform_quiet hq hclient)
  exact ⟨ht'.behind, hf r t' ht'⟩

theorem keepsUp_sleep {ms : Nat} (h : Even seeds s) :
    keepsUp seeds (fun _ s' => Even seeds s') (sleep ms) s :=
  keepsUp_even (by trivial) (by trivial) h fun _ _ hs' => hs'

/-- **The request**: afterwards the candle that it returned is still to be dealt with. -/
theorem keepsUp_fetchLatestCandle {coin : String} (hcoin : upper coin = coin)
    (h : Even seeds s) :
    keepsUp seeds (fun out s' => (out = none ∧ Even seeds s') ∨
        ∃ g, out = some g.candle ∧ g.coin = coin ∧ g.candle.symbol = coin ∧ CatchingUp seeds g s')
      (fetchLatestCandle coin) s := by
  unfold fetchLatestCandle
  refine keepsUp_even (by trivial) (by trivial) h fun now s₁ h₁ => Coro.wp_tryCatch ?_
  intro t hs inp reply t' _ hperf
  subst hs
  obtain ⟨⟨r₀, w⟩, hclient, hout⟩ := Option.map_eq_some_iff.mp hperf
  obtain ⟨rfl, rfl⟩ := Prod.mk.inj hout
  have hquiet : Quiet s₁.client w := perform_quiet (by trivial) hclient
  obtain ⟨rfl, -⟩ := Prod.mk.inj (Option.some.inj hclient)
  show Behind seeds (.mk w (s₁.glances ++ glanced (upper coin) inp.reply w.clock)) ∧
    Coro.wp _ _ _ _ _ _ (Coro.ofExcept (latestOfReply coin inp.reply))
      (Polled.mk w (s₁.glances ++ glanced (upper coin) inp.reply w.clock))
  rw [hcoin]
  unfold glanced
  -- a request that failed, or whose reply is empty, has shown nothing
  have hnothing : Even seeds ⟨w, s₁.glances ++ []⟩ := h₁.later (List.append_nil _) hquiet
  cases hlatest : latestOfReply coin inp.reply with
  | error e => exact ⟨hnothing.behind, Or.inl ⟨rfl, hnothing⟩⟩
  | ok out =>
      cases out with
      | none => exact ⟨hnothing.behind, Or.inl ⟨rfl, hnothing⟩⟩
      | some c =>
          have hsymbol : c.symbol = coin := by
            rw [(latestOfReply_some hlatest).1]
            exact hcoin
          have hpending : CatchingUp seeds ⟨coin, c, w.clock⟩
              ⟨w, s₁.glances ++ [⟨coin, c, w.clock⟩]⟩ :=
            ⟨h₁.ordered.glance rfl hquiet.clock rfl, s₁.glances, rfl, h₁.caught.quiet hquiet⟩
          exact ⟨hpending.behind, Or.inr ⟨⟨coin, c, w.clock⟩, rfl, rfl, hsymbol, hpending⟩⟩

/-- **The comparison** with the last candle, and the yield. -/
theorem keepsUp_compare (h : CatchingUp seeds g s) (hsymbol : g.candle.symbol = g.coin) :
    keepsUp seeds (fun _ s' => Even seeds s') (do
      let last ← lastSeen
      if isNewer (last g.coin) g.candle then
        emit g.coin g.candle
      sleep 500) s := by
  intro t hs inp last t' _ hperf
  subst hs
  obtain ⟨hglances, hclient⟩ := Polled.perform_glances (o := .lastSeen) (by trivial) hperf
  have ht' := h.later hglances (perform_quiet (by trivial) hclient)
  obtain ⟨hlast, hsame⟩ := Prod.mk.inj (Option.some.inj hclient)
  have hlast : last = t'.client.lastCandleTs := by rw [← hlast, hsame]
  refine ⟨ht'.behind, ?_⟩
  obtain ⟨gs, hgs, hcaught⟩ := ht'.caught
  show keepsUp seeds _ (if isNewer (last g.coin) g.candle = true
    then emit g.coin g.candle >>= fun _ => sleep 500 else sleep 500) t'
  rw [hlast]
  split
  -- a candle that is newer is yielded; an older one is dealt with by leaving it
  next hnew =>
    intro u hu inp' r u' _ hperf'
    subst hu
    obtain ⟨hkept, hemit⟩ :=
      Polled.perform_glances (o := .emit g.coin g.candle) (by trivial) hperf'
    have hclock : t'.client.clock ≤ u'.client.clock := by
      obtain ⟨-, hclock⟩ := Prod.mk.inj (Option.some.inj hemit)
      rw [← hclock]
      simp
    have hu' : Even seeds u' := by
      refine ⟨ht'.ordered.later hkept hclock, ?_⟩
      rw [hkept, hgs]
      exact hcaught.emit hsymbol hnew hemit
    exact ⟨hu'.behind, keepsUp_sleep hu'⟩
  next hold =>
    refine keepsUp_sleep ⟨ht'.ordered, ?_⟩
    rw [hgs]
    exact hcaught.skip (by simpa using hold)

theorem keepsUp_pollCoin {coin : String} (hcoin : upper coin = coin) (h : Even seeds s) :
    keepsUp seeds (fun _ s' => Even seeds s') (pollCoin coin) s := by
  unfold pollCoin
  refine Coro.wp_bind (Coro.wp_mono ?_ (fun _ _ he => he) (keepsUp_fetchLatestCandle hcoin h))
  intro out u hu
  rcases hu with ⟨rfl, hu⟩ | ⟨g, rfl, hg, hsymbol, hu⟩
  · exact keepsUp_sleep hu
  · subst hg
    exact keepsUp_compare hu hsymbol

/-- **A poll**, and the minute after it. -/
theorem keepsUp_round {symbols : List String} (hsymbols : ∀ coin ∈ symbols, upper coin = coin)
    (h : Even seeds s) :
    keepsUp seeds (fun phase s' => phase = .polling ∧ Even seeds s')
      (stream symbols .polling) s := by
  refine Coro.wp_tryCatch (Coro.wp_bind (Coro.wp_mono ?_ (fun _ _ he => False.elim he)
    (Coro.wp_forEach (I := fun rest u => (∀ coin ∈ rest, upper coin = coin) ∧ Even seeds u)
      ?_ symbols s ⟨hsymbols, h⟩)))
  · intro _ u hu
    exact Coro.wp_bind (Coro.wp_mono (fun _ _ hv => ⟨rfl, hv⟩) (fun _ _ he => False.elim he)
      (keepsUp_sleep hu.2))
  · intro coin rest u hu
    refine Coro.wp_mono (fun _ v hv => ⟨?_, hv⟩) (fun _ _ he => he)
      (keepsUp_pollCoin (hu.1 coin List.mem_cons_self) hu.2)
    intro other hother
    exact hu.1 other (List.mem_cons_of_mem _ hother)

/-! ## §4. Whole runs. -/

/-- A bar apart at most: in the same bar, or in the next one. -/
theorem barOf_step {t t' : Int} (hle : t ≤ t') (hnear : t' ≤ t + seconds 900) :
    barOf t' = barOf t ∨ barOf t' = barOf t + seconds 900 := by
  have hbar : seconds 900 = 900000000 := by decide
  rw [hbar] at hnear ⊢
  show t' - t' % seconds 900 = t - t % seconds 900 ∨
    t' - t' % seconds 900 = t - t % seconds 900 + 900000000
  rw [hbar]
  omega

theorem barOf_mono {t t' : Int} (hle : t ≤ t') : barOf t ≤ barOf t' := by
  have hbar : seconds 900 = 900000000 := by decide
  show t - t % seconds 900 ≤ t' - t' % seconds 900
  rw [hbar]
  omega

/-- The bars of requests that are a bar apart at most. -/
theorem isChain_bars (hcurrent : ∀ g ∈ gs, g.Current)
    (hrising : gs.Pairwise fun g g' => g.time ≤ g'.time) (hfrequent : Frequent gs) :
    (gs.map Glance.candle).IsChain fun c c' =>
      c'.timestamp = c.timestamp ∨ c'.timestamp = c.timestamp + seconds 900 := by
  rw [List.isChain_map]
  induction gs with
  | nil => exact List.isChain_nil
  | cons g gs ih =>
      obtain ⟨hfirst, hrest⟩ := List.pairwise_cons.mp hrising
      obtain ⟨hnear, hfrequent⟩ := List.isChain_cons.mp hfrequent
      have htail := ih (fun g' hg' => hcurrent g' (List.mem_cons_of_mem _ hg')) hrest hfrequent
      refine List.isChain_cons.mpr ⟨?_, htail⟩
      intro g' hg'
      have hmem : g' ∈ gs := List.mem_of_mem_head? hg'
      rw [hcurrent g List.mem_cons_self, hcurrent g' (List.mem_cons_of_mem _ hmem)]
      exact barOf_step (hfirst g' hmem) (hnear g' hg')

/-- The candles that the requests for `coin` showed never go back. -/
theorem rising_bars (hcurrent : ∀ g ∈ gs, g.Current)
    (hrising : gs.Pairwise fun g g' => g.time ≤ g'.time) :
    (gs.map Glance.candle).Pairwise fun c c' => c.timestamp ≤ c'.timestamp := by
  rw [List.pairwise_map]
  refine hrising.imp_of_mem ?_
  intro g g' hg hg' hle
  rw [hcurrent g hg, hcurrent g' hg']
  exact barOf_mono hle

/-- The requests for `coin`. -/
abbrev requestsFor (coin : String) (gs : List Glance) : List Glance :=
  gs.filter fun g => g.coin = coin

/-- **Polls leave no gap.**  In every run in `poll` mode all requests that succeeded, but the
newest perhaps, are dealt with: of each symbol the stream has yielded the candles shown that
are newer than all before.  And as long as the requests for it show the current bar, and each
comes at most a bar after the one before, the candles yielded are those of consecutive bars,
and no bar that was shown is missing. -/
theorem polls_gap_free {symbols : String} {c₀ c : Loop Resp PyErr Phase Polled}
    (htask : c₀.task = .pure Mode.poll.start) (hyielded : c₀.world.client.yielded = [])
    (hglances : c₀.world.glances = [])
    (hrun : Reaches (polledStep (symbolList symbols)) (fun _ _ => True) c₀ c) :
    ∃ dealt, (c.world.glances = dealt ∨ ∃ g, c.world.glances = dealt ++ [g]) ∧ ∀ coin,
      yieldedOf coin c.world.client
        = highs Candle.timestamp (c₀.world.client.lastCandleTs coin) (shown coin dealt) ∧
      ((∀ g ∈ requestsFor coin c.world.glances, g.Current) →
        Frequent (requestsFor coin c.world.glances) →
        ((yieldedOf coin c.world.client).IsChain fun a b =>
          b.timestamp = a.timestamp + seconds 900) ∧
        ∀ g ∈ requestsFor coin dealt,
          (∃ t, c₀.world.client.lastCandleTs coin = some t ∧ g.candle.timestamp ≤ t) ∨
          ∃ y ∈ yieldedOf coin c.world.client, y.timestamp = g.candle.timestamp) := by
  -- no request has been made yet
  have hstart : Even c₀.world.client.lastCandleTs c₀.world := by
    refine ⟨⟨?_, ?_⟩, ⟨?_, ?_⟩⟩
    · rw [hglances]
      exact List.Pairwise.nil
    · rw [hglances]
      exact fun g hg => absurd hg (by simp)
    · intro coin
      unfold yieldedOf
      rw [hyielded, hglances]
      rfl
    · intro coin
      rw [hglances]
      rfl
  have h : Behind c₀.world.client.lastCandleTs c.world := by
    -- nothing is assumed of the answers
    have hrun : Reaches (polledStep (symbolList symbols)) (Loop.Meets fun _ _ _ => True) c₀ c := by
      refine hrun.mono fun d a _ => ?_
      cases a with
      | answer l => cases hd : d.task <;> simp [Loop.Meets, hd]
      | again => trivial
    refine Loop.sound (J := Behind c₀.world.client.lastCandleTs)
      (I := fun phase w => phase = .polling ∧ Even c₀.world.client.lastCandleTs w)
      (E := fun _ _ => False) (fun phase w _ hI => ?_) hstart.behind ?_ hrun
    · obtain ⟨rfl, hw⟩ := hI
      exact keepsUp_round (fun coin hcoin => upper_of_mem_symbolList hcoin) hw
    · rw [htask]
      exact ⟨rfl, hstart⟩
  obtain ⟨dealt, hdealt, hcaught⟩ := h.caught
  refine ⟨dealt, hdealt, fun coin => ⟨hcaught.yielded coin, fun hcurrent hfrequent => ?_⟩⟩
  -- what is true of all requests is true of those that are dealt with
  have hprefix : dealt <+: c.world.glances := by
    rcases hdealt with hall | ⟨g, hall⟩
    · exact hall ▸ List.prefix_refl _
    · exact hall ▸ List.prefix_append _ _
  have hseen : requestsFor coin dealt <+: requestsFor coin c.world.glances := hprefix.filter _
  have hcurrent : ∀ g ∈ requestsFor coin dealt, g.Current :=
    fun g hg => hcurrent g (hseen.subset hg)
  have hfrequent : Frequent (requestsFor coin dealt) := hfrequent.prefix hseen
  have hrising : (requestsFor coin dealt).Pairwise fun g g' => g.time ≤ g'.time :=
    (h.ordered.rising.sublist hprefix.sublist).sublist List.filter_sublist
  rw [hcaught.yielded coin]
  -- of bars that follow each other or repeat, the highs follow each other
  have hnext : ∀ t : Time, t < t + seconds 900 :=
    fun t => Int.lt_add_of_pos_right t (by decide)
  refine ⟨isChain_highs hnext (isChain_bars hcurrent hrising hfrequent), ?_⟩
  · intro g hg
    exact exists_high (rising_bars hcurrent hrising) (List.mem_map_of_mem hg)

/-- A poll that shows the candle at `t`, in a reply that takes `elapsed` seconds. -/
def pollOf (t elapsed : Nat) : List (Loop.Action Input) :=
  [.again, .answer {},
   .answer { elapsed := elapsed * 1000000, reply :=
      .response 200 (some (.arr [.obj (samplePayload t)])) },
   .answer {}, .answer {}, .answer {}, .answer {}]

/-- Nothing was shown. -/
def unpolled : Loop Resp PyErr Phase Polled :=
  ⟨⟨⟨fun _ => none, 0, [], []⟩, []⟩, .pure Mode.poll.start⟩

theorem polls_gap_free_twice : ∃ c : Loop Resp PyErr Phase Polled,
    (yieldedOf "BTC" c.world.client).map Candle.timestamp = [seconds 900, seconds 1800] ∧
    (yieldedOf "BTC" c.world.client).IsChain fun a b =>
      b.timestamp = a.timestamp + seconds 900 := by
  have hend : (runs (fun c a => if True then polledStep (symbolList "btc") c a else none)
      (pollOf 900 1000 ++ pollOf 1800 900) unpolled).any
      (fun c : Loop Resp PyErr Phase Polled => decide ((yieldedOf "BTC" c.world.client).map Candle.timestamp
          = [seconds 900, seconds 1800] ∧
        (∀ g ∈ requestsFor "BTC" c.world.glances, g.Current) ∧
        Frequent (requestsFor "BTC" c.world.glances))) = true := by decide
  obtain ⟨c, hc, htest⟩ := Reaches.exists_of_runs hend
  obtain ⟨hyielded, hcurrent, hfrequent⟩ := of_decide_eq_true htest
  obtain ⟨_, _, hpolls⟩ := polls_gap_free rfl rfl rfl hc
  exact ⟨c, hyielded, ((hpolls "BTC").2 hcurrent hfrequent).1⟩

end Pulse.Ingest.Client
