/-
  Pulse.Ingest.Rounds
  ───────────────────
  **THE ROUNDS OF THE STREAM, ONCE FOR ALL.**

  Only three places of the client yield: the backfill of a coin, a live message
  and a poll.  An invariant that every other operation keeps holds along all
  runs as soon as these three keep it.  An invariant may also be one of the
  loop's phases, and fail for a while inside a round.

    • `holds_backfillCoin`, `holds_onMessage`, `keeps_pollCoin` — what is known
      where a candle is yielded,
    • `Phased.run` — the invariants of the phases hold along every run,
    • `Keeper.run` — so does one that is never broken.
-/
import Pulse.Ingest.Client

namespace Pulse.Ingest.Client

open Pulse.Async

variable {ok : Op → Input → Client → Prop} {J E : Client → Prop} {w : Client}

/-! ## §1. One program. -/

variable (ok J E) in
/-- `J` holds after every operation, and `E` if something is raised. -/
abbrev holds {α : Type} (Q : α → Client → Prop) (p : ClientProg α) (w : Client) : Prop :=
  Coro.wp perform ok Eq (fun _ w' => J w') Q (fun _ w' => E w') p w

variable (ok J) in
/-- `J` holds after every operation, and at the end if something is raised. -/
abbrev keeps {α : Type} (Q : α → Client → Prop) (p : ClientProg α) (w : Client) : Prop :=
  holds ok J J Q p w

/-- Without a yield. -/
theorem keeps_quiet {α : Type} {ρ : α → Prop} {p : ClientProg α}
    (hJ : ∀ w w', J w → Quiet w w' → J w') (hp : p.Uses Op.quiet ρ) (h : J w) :
    keeps ok J (fun a w' => ρ a ∧ J w' ∧ Quiet w w') p w := by
  refine Coro.wp_mono (fun _ _ hq => hq) (fun _ w' hq => hq.1)
    (Coro.wp_of_uses (I := fun w' => J w' ∧ Quiet w w') (R := Eq)
      (fun _ _ hs hI => hs ▸ hI) ?_ hp ⟨h, .refl w⟩)
  intro o inp s r s' ho _ hperf hI
  have hq := perform_quiet ho hperf
  have hs' : J s' := hJ s s' hI.1 hq
  exact ⟨hs', hs', hI.2.trans hq⟩

/-- Nothing but time passes. -/
def Still (w w' : Client) : Prop := ∃ n, w' = w.tick n

theorem Still.refl (w : Client) : Still w w := ⟨0, by simp [tick]⟩

theorem Still.trans {w w' w'' : Client} (h : Still w w') (h' : Still w' w'') : Still w w'' := by
  obtain ⟨n, rfl⟩ := h
  obtain ⟨m, rfl⟩ := h'
  exact ⟨n + m, by simp [tick, add_assoc]⟩

theorem Still.quiet {w w' : Client} (h : Still w w') : Quiet w w' := by
  obtain ⟨n, rfl⟩ := h
  exact quiet_tick w n

end Pulse.Ingest.Client

namespace Pulse.Ingest

/-- Neither a yield nor anything that the log keeps. -/
def Op.still : Op → Prop
  | .post _ _ _ _ | .connect | .recv | .emit _ _ => False
  | _ => True

end Pulse.Ingest

namespace Pulse.Ingest.Client

open Pulse.Async

variable {ok : Op → Input → Client → Prop} {J E : Client → Prop} {w : Client}

theorem perform_still {o : Op} {inp : Input} {w w' : Client} {r : Resp o} (ho : o.still)
    (h : perform o inp w = some (r, w')) : Still w w' := by
  cases o with
  | utcnow | lastSeen =>
      cases h
      exact .refl w
  | send _ _ | close | sleep _ =>
      cases h
      exact ⟨_, rfl⟩
  | post _ _ _ _ | connect | recv | emit _ _ => exact ho.elim

/-- While only time passes. -/
theorem holds_still {α : Type} {ρ : α → Prop} {p : ClientProg α}
    (hJ : ∀ w', Still w w' → J w') (hE : ∀ w', Still w w' → E w') (hp : p.Uses Op.still ρ) :
    holds ok J E (fun a w' => ρ a ∧ Still w w') p w := by
  refine Coro.wp_mono (fun _ _ hq => hq) (fun _ w' hq => hE w' hq)
    (Coro.wp_of_uses (I := fun w' => Still w w') (R := Eq) (fun _ _ hs hI => hs ▸ hI) ?_ hp
      (.refl w))
  intro o inp s r s' ho _ hperf hI
  have hs' := hI.trans (perform_still ho hperf)
  exact ⟨hJ s' hs', hs'⟩

/-- Reading the clock. -/
theorem holds_utcnow {α : Type} {Q : α → Client → Prop} {f : Time → ClientProg α} (h : J w)
    (hf : holds ok J E Q (f w.clock) w) : holds ok J E Q (utcnow >>= f) w := by
  intro s₁ hs inp now s₂ _ hperf
  subst hs
  obtain ⟨rfl, rfl⟩ := Prod.mk.inj (Option.some.inj hperf)
  exact ⟨h, hf⟩

/-- Reading the map of last candles. -/
theorem holds_lastSeen {α : Type} {Q : α → Client → Prop}
    {f : (String → Option Time) → ClientProg α} (h : J w)
    (hf : holds ok J E Q (f w.lastCandleTs) w) : holds ok J E Q (lastSeen >>= f) w := by
  intro s₁ hs inp last s₂ _ hperf
  subst hs
  obtain ⟨rfl, rfl⟩ := Prod.mk.inj (Option.some.inj hperf)
  exact ⟨h, hf⟩

/-- A yield. -/
theorem holds_emit {coin : String} {candle : Candle} {Q : Unit → Client → Prop}
    (h : ∀ inp w', perform (.emit coin candle) inp w = some ((), w') → J w' ∧ Q () w') :
    holds ok J E Q (emit coin candle) w := by
  intro s₁ hs inp r s₂ _ hperf
  subst hs
  exact h inp s₂ hperf

/-! ## §2. Where candles are yielded. -/

/-- After the answer `inp` to a request. -/
def answered (w : Client) (coin : String) (endMs : Int) (inp : Input) : Client :=
  (w.tick inp.elapsed).meet (.answered coin endMs inp.reply)

/-- `fetch_candles` returns what the reply holds, or nothing. -/
theorem holds_fetchCandles {coin : String} {startTime endTime : Time}
    {Q : List Candle → Client → Prop}
    (hraised : ∀ inp e, ok (.post (upper coin) "15m" (toMs startTime) (toMs endTime)) inp w →
      candlesOfReply coin 900 inp.reply = .error e →
      J (w.answered (upper coin) (toMs endTime) inp) ∧
        Q [] (w.answered (upper coin) (toMs endTime) inp))
    (hread : ∀ inp candles,
      ok (.post (upper coin) "15m" (toMs startTime) (toMs endTime)) inp w →
      candlesOfReply coin 900 inp.reply = .ok candles →
      J (w.answered (upper coin) (toMs endTime) inp) ∧
        Q candles (w.answered (upper coin) (toMs endTime) inp)) :
    holds ok J E Q (fetchCandles coin startTime endTime "15m") w := by
  unfold fetchCandles
  refine Coro.wp_tryCatch ?_
  intro s₁ hs inp reply w' hok hperf
  subst hs
  obtain ⟨rfl, rfl⟩ := Prod.mk.inj (Option.some.inj hperf)
  show _ ∧ Coro.wp _ _ _ _ _ _ (Coro.ofExcept (candlesOfReply coin 900 inp.reply)) _
  cases hcandles : candlesOfReply coin 900 inp.reply with
  | error e => exact hraised inp e hok hcandles
  | ok candles => exact hread inp candles hok hcandles

/-- **The backfill of one coin**: `B missed` holds while `missed` is still to be
yielded. -/
theorem holds_backfillCoin {coin : String} {B : List Candle → Client → Prop}
    {Q : Client → Prop} (h : J w) (hnone : w.lastCandleTs (upper coin) = none → Q w)
    (hraised : ∀ last inp e, w.lastCandleTs (upper coin) = some last →
      ok (.post (upper coin) "15m" (toMs last) (toMs w.clock)) inp w →
      candlesOfReply coin 900 inp.reply = .error e →
      J (w.answered (upper coin) (toMs w.clock) inp) ∧
        Q (w.answered (upper coin) (toMs w.clock) inp))
    (hinit : ∀ last inp candles, w.lastCandleTs (upper coin) = some last →
      ok (.post (upper coin) "15m" (toMs last) (toMs w.clock)) inp w →
      candlesOfReply coin 900 inp.reply = .ok candles →
      B (candles.filter fun c => last < c.timestamp)
        (w.answered (upper coin) (toMs w.clock) inp))
    (hB : ∀ missed u, B missed u → J u) (hend : ∀ u, B [] u → Q u)
    (hemit : ∀ c missed u u' inp, B (c :: missed) u →
      perform (.emit c.symbol c) inp u = some ((), u') → B missed u') :
    holds ok J E (fun _ w' => Q w') (backfillCoin coin) w := by
  unfold backfillCoin
  refine holds_lastSeen h ?_
  split
  next hlast => exact hnone hlast
  next last hlast =>
    -- `B` is the invariant of the loop over what was missed
    have hemits : ∀ missed u, B missed u → holds ok J E (fun _ w' => Q w')
        (Coro.forEach missed fun c => emit c.symbol c) u := by
      intro missed u hu
      refine Coro.wp_mono (fun _ v hv => hend v hv) (fun _ _ he => he)
        (Coro.wp_forEach (I := B) (fun c rest v hv => ?_) missed u hu)
      refine holds_emit fun inp v' hperf => ?_
      have hv' := hemit c rest v v' inp hv hperf
      exact ⟨hB rest v' hv', hv'⟩
    refine Coro.wp_bind (Coro.wp_tryCatch ?_)
    unfold backfill
    show holds ok J _ _ (utcnow >>= fun now => fetchCandles coin last now "15m" >>= _) w
    refine holds_utcnow h (Coro.wp_bind (holds_fetchCandles ?_ ?_))
    · exact fun inp e hok hcandles => hraised last inp e hlast hok hcandles
    · intro inp candles hok hcandles
      have hu := hinit last inp candles hlast hok hcandles
      exact ⟨hB _ _ hu, hemits _ _ hu⟩

/-- The same, for an invariant that is never broken. -/
theorem keeps_backfillCoin {coin : String} {B : List Candle → Client → Prop}
    (hJ : ∀ w w', J w → Quiet w w' → J w') (h : J w)
    (hB : ∀ missed u, B missed u → J u)
    (hinit : ∀ last inp candles, w.lastCandleTs (upper coin) = some last →
      ok (.post (upper coin) "15m" (toMs last) (toMs w.clock)) inp w →
      candlesOfReply coin 900 inp.reply = .ok candles →
      B (candles.filter fun c => last < c.timestamp)
        (w.answered (upper coin) (toMs w.clock) inp))
    (hemit : ∀ c missed u u' inp, B (c :: missed) u →
      perform (.emit c.symbol c) inp u = some ((), u') → B missed u') :
    keeps ok J (fun _ w' => J w') (backfillCoin coin) w :=
  holds_backfillCoin h (fun _ => h)
    (fun _ _ _ _ _ _ => ⟨hJ w _ h (quiet_meet w _ _), hJ w _ h (quiet_meet w _ _)⟩)
    hinit hB (fun u hu => hB [] u hu) hemit

/-- **A live message.** -/
theorem holds_onMessage {msg : Json} {Q : Client → Prop} (h : J w)
    (hraised : ∀ e, handleMessage (nowMs w.clock) w.lastCandleTs msg = .error e → E w)
    (hnone : handleMessage (nowMs w.clock) w.lastCandleTs msg = .ok none → Q w)
    (hemit : ∀ coin candle inp u,
      handleMessage (nowMs w.clock) w.lastCandleTs msg = .ok (some (coin, candle)) →
      perform (.emit coin candle) inp w = some ((), u) → J u ∧ Q u) :
    holds ok J E (fun _ w' => Q w') (onMessage msg) w := by
  unfold onMessage
  refine holds_utcnow h (holds_lastSeen h ?_)
  show Coro.wp _ _ _ _ _ _
    (Coro.ofExcept (handleMessage (nowMs w.clock) w.lastCandleTs msg) >>= _) w
  cases hmessage : handleMessage (nowMs w.clock) w.lastCandleTs msg with
  | error e => exact hraised e hmessage
  | ok accepted =>
      cases accepted with
      | none => exact hnone hmessage
      | some accepted =>
          obtain ⟨coin, candle⟩ := accepted
          exact holds_emit fun inp u hperf => hemit coin candle inp u hmessage hperf

/-- The same, for an invariant that is never broken. -/
theorem keeps_onMessage {msg : Json} (h : J w)
    (hemit : ∀ coin candle inp u,
      handleMessage (nowMs w.clock) w.lastCandleTs msg = .ok (some (coin, candle)) →
      perform (.emit coin candle) inp w = some ((), u) → J u) :
    keeps ok J (fun _ w' => J w') (onMessage msg) w :=
  holds_onMessage h (fun _ _ => h) (fun _ => h) fun coin candle inp u hmessage hperf =>
    ⟨hemit coin candle inp u hmessage hperf, hemit coin candle inp u hmessage hperf⟩

/-- **A poll of one coin.** -/
theorem keeps_pollCoin {coin : String} (hJ : ∀ w w', J w → Quiet w w' → J w') (h : J w)
    (hemit : ∀ startMs endMs inp candle inp' u,
      ok (.post (upper coin) "15m" startMs endMs) inp w →
      latestOfReply coin inp.reply = .ok (some candle) →
      isNewer (w.lastCandleTs coin) candle = true →
      perform (.emit coin candle) inp' (w.answered (upper coin) endMs inp) = some ((), u) →
      J u) :
    keeps ok J (fun _ w' => J w') (pollCoin coin) w := by
  have hsleep : ∀ (n : Nat) (u : Client), J u → keeps ok J (fun _ w' => J w') (sleep n) u :=
    fun n u hu => Coro.wp_mono (fun _ _ hq => hq.2.1) (fun _ _ he => he)
      (keeps_quiet (ρ := fun _ => True) hJ ⟨trivial, fun _ => trivial⟩ hu)
  have hfetch : keeps ok J (fun candle u => J u ∧ (candle = none ∨ ∃ startMs endMs inp c,
      candle = some c ∧ ok (.post (upper coin) "15m" startMs endMs) inp w ∧
        latestOfReply coin inp.reply = .ok (some c) ∧ u = w.answered (upper coin) endMs inp))
      (fetchLatestCandle coin) w := by
    unfold fetchLatestCandle
    refine holds_utcnow h (Coro.wp_tryCatch ?_)
    intro s₁ hs inp reply u hok hperf
    subst hs
    obtain ⟨rfl, rfl⟩ := Prod.mk.inj (Option.some.inj hperf)
    have hu : J (w.answered (upper coin) (nowMs w.clock) inp) := hJ w _ h (quiet_meet w _ _)
    refine ⟨hu, ?_⟩
    show Coro.wp _ _ _ _ _ _ (Coro.ofExcept (latestOfReply coin inp.reply)) _
    cases hlatest : latestOfReply coin inp.reply with
    | error e => exact ⟨hu, Or.inl rfl⟩
    | ok candle =>
        refine ⟨hu, ?_⟩
        cases candle with
        | none => exact Or.inl rfl
        | some c => exact Or.inr ⟨_, _, inp, c, rfl, hok, hlatest, rfl⟩
  -- nothing fetched, nothing newer, or a candle to emit; the pause follows in all cases
  unfold pollCoin
  refine Coro.wp_bind (Coro.wp_mono ?_ (fun _ _ he => he) hfetch)
  rintro candle u ⟨hu, rfl | ⟨startMs, endMs, inp, c, rfl, hok, hlatest, rfl⟩⟩
  · exact hsleep 500 u hu
  · refine holds_lastSeen hu ?_
    show keeps ok J _ (if isNewer (w.lastCandleTs coin) c = true
      then emit coin c >>= fun _ => sleep 500 else sleep 500) _
    split
    next hnewer =>
      refine Coro.wp_bind (holds_emit fun inp' v hperf => ?_)
      have hv := hemit startMs endMs inp c inp' v hok hlatest hnewer hperf
      exact ⟨hv, hsleep 500 v hv⟩
    next => exact hsleep 500 _ hu

/-! ## §3. The loop over a socket. -/

/-- The invariants of `_stream_ws`: `A` without a connection, `B rest` on one on which
the coins of `rest` are still to be backfilled, and `J` after every operation. -/
structure Phased (ok : Op → Input → Client → Prop) (J A : Client → Prop)
    (B : List String → Client → Prop) (symbols : List String) : Prop where
  weaken : ∀ w, A w → J w
  idle : ∀ rest w, B rest w → A w
  stillA : ∀ w w', A w → Still w w' → A w'
  stillB : ∀ rest w w', B rest w → Still w w' → B rest w'
  connect : ∀ w inp w', A w → ok .connect inp w →
    perform .connect inp w = some (.ok (), w') → B symbols w'
  backfill : ∀ coin rest w, B (coin :: rest) w →
    holds ok J A (fun _ w' => B rest w') (backfillCoin coin) w
  message : ∀ w inp msg u, B [] w → ok .recv inp w → inp.frame = .message msg →
    perform .recv inp w = some (inp.frame, u) →
      J u ∧ holds ok J A (fun _ w' => B [] w') (onMessage msg) u

/-- Not a message. -/
def Frame.quiet : Frame → Prop
  | .message _ => False
  | _ => True

/-- What holds where a phase begins. -/
def Phase.inv (A : Client → Prop) (B : List String → Client → Prop) (symbols : List String) :
    Phase → Client → Prop
  | .connecting _ => A
  | .connected => B symbols
  | .listening => B []
  | .polling => fun _ => False

section Socket

variable {A : Client → Prop} {B : List String → Client → Prop} {symbols : List String}

/-- A socket that could not be opened. -/
theorem connect_fails {inp : Input} {e : PyErr} {u : Client}
    (h : perform .connect inp w = some (.error e, u)) : Still w u := by
  obtain ⟨hr, rfl⟩ := Prod.mk.inj (Option.some.inj h)
  unfold socket at hr
  unfold dialled
  split at hr
  next => exact ⟨_, rfl⟩
  next => exact absurd hr (by simp)

theorem Phased.still (hk : Phased ok J A B symbols) {α : Type} {ρ : α → Prop}
    {p : ClientProg α} (hp : p.Uses Op.still ρ) (h : A w) :
    holds ok J A (fun a w' => ρ a ∧ Still w w') p w :=
  holds_still (fun w' hw => hk.weaken w' (hk.stillA w w' h hw)) (fun w' hw => hk.stillA w w' h hw) hp

theorem Phased.reconnect (hk : Phased ok J A B symbols) {backoff : Nat} (h : A w) :
    holds ok J A (Phase.inv A B symbols) (Ingest.reconnect backoff) w := by
  have hp : (Ingest.reconnect backoff).Uses Op.still (fun phase => ∃ n, phase = .connecting n) :=
    ⟨trivial, fun _ => ⟨_, rfl⟩⟩
  refine Coro.wp_mono ?_ (fun _ _ he => he) (hk.still hp h)
  rintro _ u ⟨⟨n, rfl⟩, hu⟩
  exact hk.stillA w u h hu

theorem Phased.listen (hk : Phased ok J A B symbols) (h : B [] w) :
    holds ok J A (Phase.inv A B symbols) listen w := by
  unfold Ingest.listen
  intro s₁ hs inp (frame : Frame) u hok hperf
  subst hs
  obtain ⟨hframe, hu⟩ := Prod.mk.inj (Option.some.inj hperf)
  -- no frame but a message is kept
  have hquiet : Frame.quiet frame → B [] u := by
    intro hquiet
    refine hk.stillB [] w u h ⟨inp.elapsed, ?_⟩
    rw [← hu, hframe]
    cases frame with
    | message msg => exact hquiet.elim
    | badJson | timeout | error e => rfl
  cases frame with
  | message msg =>
      obtain ⟨hu, hmessage⟩ := hk.message w inp msg u h hok hframe (by rw [hframe]; exact hperf)
      refine ⟨hu, ?_⟩
      show holds ok J A _ (onMessage msg >>= fun _ => pure Phase.listening) u
      exact Coro.wp_bind (Coro.wp_mono (fun _ v hv => hv) (fun _ _ he => he) hmessage)
  | badJson =>
      exact ⟨hk.weaken u (hk.idle [] u (hquiet trivial)), hquiet trivial⟩
  | error e =>
      have hu := hk.idle [] u (hquiet trivial)
      exact ⟨hk.weaken u hu, hu⟩
  | timeout =>
      have hu := hk.idle [] u (hquiet trivial)
      have hp : (close >>= fun _ => pure (Phase.connecting 1)).Uses Op.still
          (fun phase => phase = .connecting 1) :=
        Coro.Uses.bind (ρ := fun _ => True) ⟨trivial, fun r => .ofExcept r⟩ fun _ _ => rfl
      refine ⟨hk.weaken u hu, Coro.wp_mono ?_ (fun _ _ he => he) (hk.still hp hu)⟩
      rintro _ v ⟨rfl, hv⟩
      exact hk.stillA u v hu hv

/-- **A round of the loop** over a socket. -/
theorem Phased.round (hk : Phased ok J A B symbols) {phase : Phase}
    (h : Phase.inv A B symbols phase w) :
    holds ok J A (Phase.inv A B symbols) (stream symbols phase) w := by
  cases phase with
  | polling => exact h.elim
  -- each phase has its own `try`, which ends in a reconnect
  | connecting backoff =>
      refine Coro.wp_tryCatch ?_
      intro s₁ hs inp (r : Except PyErr Unit) u hok hperf
      subst hs
      cases r with
      | ok _ =>
          have hu := hk.connect w inp u h hok hperf
          exact ⟨hk.weaken u (hk.idle symbols u hu), hu⟩
      | error e =>
          have hu := hk.stillA w u h (connect_fails hperf)
          exact ⟨hk.weaken u hu, hk.reconnect hu⟩
  | connected =>
      have hsends : (Coro.forEach symbols fun coin => send (upper coin) "15m").Uses Op.still
          (fun _ => True) :=
        Coro.Uses.forEach fun coin _ => ⟨trivial, fun r => .ofExcept r⟩
      refine Coro.wp_tryCatch (Coro.wp_bind (Coro.wp_mono (fun _ u hu => ?_)
        (fun _ _ he => hk.reconnect he) (hk.still hsends (hk.idle symbols w h))))
      have hu := hk.stillB symbols w u h hu.2
      exact Coro.wp_bind (Coro.wp_mono (fun _ v hv => hv) (fun _ _ he => hk.reconnect he)
        (Coro.wp_forEach (I := B) (fun coin rest v hv => hk.backfill coin rest v hv)
          symbols u hu))
  | listening =>
      exact Coro.wp_tryCatch (Coro.wp_mono (fun _ _ hq => hq)
        (fun _ _ he => hk.reconnect he) (hk.listen h))

/-- **Along a run** over a socket. -/
theorem Phased.run (hk : Phased ok J A B symbols) {c₀ c : Stream} (h₀ : Start .ws c₀)
    (hA : A c₀.world) (hrun : Reaches (Client.step symbols) (Loop.Meets ok) c₀ c) :
    J c.world := by
  refine Loop.sound (I := Phase.inv A B symbols) (E := fun _ w => A w)
    (fun phase w _ hI => hk.round hI) (hk.weaken _ hA) ?_ hrun
  rw [h₀.task]
  exact hA

end Socket

/-! ## §4. An invariant that is never broken. -/

/-- The three places, for the stream of `symbols` in `mode`. -/
structure Keeper (ok : Op → Input → Client → Prop) (J : Client → Prop) (mode : Mode)
    (symbols : List String) : Prop where
  quiet : ∀ w w', J w → Quiet w w' → J w'
  backfill : mode = .ws → ∀ coin ∈ symbols, ∀ w, J w →
    keeps ok J (fun _ w' => J w') (backfillCoin coin) w
  message : mode = .ws → ∀ w inp msg, J w → ok .recv inp w → inp.frame = .message msg →
    ∀ u, perform .recv inp w = some (inp.frame, u) →
      keeps ok J (fun _ w' => J w') (onMessage msg) u
  poll : mode = .poll → ∀ coin ∈ symbols, ∀ w, J w →
    keeps ok J (fun _ w' => J w') (pollCoin coin) w

variable {symbols : List String}

/-- Over a socket it is the invariant of every phase. -/
theorem Keeper.phased (hk : Keeper ok J .ws symbols) :
    Phased ok J J (fun rest w => J w ∧ rest ⊆ symbols) symbols where
  weaken := fun _ h => h
  idle := fun _ _ h => h.1
  stillA := fun w w' h hw => hk.quiet w w' h hw.quiet
  stillB := fun _ w w' h hw => ⟨hk.quiet w w' h.1 hw.quiet, h.2⟩
  connect := fun w inp w' h _ hperf =>
    ⟨hk.quiet w w' h (perform_quiet (o := .connect) trivial hperf), List.Subset.refl _⟩
  backfill := fun coin rest w h => by
    obtain ⟨hcoin, hrest⟩ := List.cons_subset.mp h.2
    exact Coro.wp_mono (fun _ u hu => ⟨hu, hrest⟩) (fun _ _ he => he)
      (hk.backfill rfl coin hcoin w h.1)
  message := fun w inp msg u h hok hframe hperf => by
    have hu := hk.quiet w u h.1 (perform_quiet (o := .recv) trivial hperf)
    exact ⟨hu, Coro.wp_mono (fun _ v hv => ⟨hv, h.2⟩) (fun _ _ he => he)
      (hk.message rfl w inp msg h.1 hok hframe u hperf)⟩

/-- **A round of polls.** -/
theorem Keeper.round (hk : Keeper ok J .poll symbols) (h : J w) :
    keeps ok J (fun phase w' => phase = .polling ∧ J w') (stream symbols .polling) w := by
  -- whatever a poll raises, the loop sleeps and goes on
  have hsleep : ∀ u, J u → keeps ok J (fun phase w' => phase = .polling ∧ J w')
      (do sleep 60000; return Phase.polling) u := by
    intro u hu
    have hp : (do sleep 60000; return Phase.polling : ClientProg Phase).Uses Op.quiet
        (fun phase => phase = .polling) := ⟨trivial, fun _ => rfl⟩
    exact Coro.wp_mono (fun _ _ hq => ⟨hq.1, hq.2.1⟩) (fun _ _ he => he)
      (keeps_quiet hk.quiet hp hu)
  have heach : keeps ok J (fun _ w' => J w') (Coro.forEach symbols pollCoin) w := by
    refine Coro.wp_mono (fun _ _ hq => hq.1) (fun _ _ he => he)
      (Coro.wp_forEach (I := fun xs v => J v ∧ xs ⊆ symbols) ?_ symbols w
        ⟨h, List.Subset.refl _⟩)
    intro coin rest v hv
    obtain ⟨hcoin, hrest⟩ := List.cons_subset.mp hv.2
    exact Coro.wp_mono (fun _ u hu => ⟨hu, hrest⟩) (fun _ _ he => he)
      (hk.poll rfl coin hcoin v hv.1)
  refine Coro.wp_tryCatch (Coro.wp_bind (Coro.wp_mono (fun _ u hu => ?_)
    (fun _ u hu => hsleep u hu) heach))
  exact Coro.wp_mono (fun _ _ hq => hq) (fun _ v hv => hsleep v hv) (hsleep u hu)

/-- **Along a run** of the stream the invariant holds. -/
theorem Keeper.run {mode : Mode} (hk : Keeper ok J mode symbols) {c₀ c : Stream}
    (h₀ : Start mode c₀) (hJ : J c₀.world)
    (hrun : Reaches (Client.step symbols) (Loop.Meets ok) c₀ c) : J c.world := by
  cases mode with
  | ws => exact hk.phased.run h₀ hJ hrun
  | poll =>
      refine Loop.sound (I := fun phase w => phase = .polling ∧ J w) (E := fun _ w => J w)
        (fun phase w _ hI => ?_) hJ ?_ hrun
      · rw [hI.1]
        exact hk.round hI.2
      · rw [h₀.task]
        exact ⟨rfl, hJ⟩

end Pulse.Ingest.Client
