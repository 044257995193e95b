/-
  Pulse.Evaluate.Outcome
  ──────────────────────
  **A RULE CLASS ANSWERS WHAT THE STORE SAYS.**

  The rule classes run in the session of the main loop, where a query can fail.
  A failed query ends the class with its exception, so whatever a class returns
  is what it computes from the candle table, as long as nobody stores candles
  meanwhile.

    • `Strict`         — a program of queries in which a failure is the end,
    • `wp_onStore`     — it returns what `onStore` computes,
    • `strict_classes` — the six rule classes are strict.
-/
import Pulse.Evaluate.Rules
import Pulse.Worker.Frame

namespace Pulse

open Pulse.Async Pulse.Store PyFloat

/-! ## §1. Programs of queries. -/

/-- Only candles are asked for, and a query that fails ends the program. -/
def Strict {α : Type} : Prog α → Prop
  | .pure _ => True
  | .raise _ => True
  | .await (.selectCandles _) k =>
      (∀ e, ∃ e', k (.error e) = .raise e') ∧ ∀ rows, Strict (k (.ok rows))
  | .await _ _ => False

variable {α β : Type}

theorem Strict.bind {p : Prog α} {f : α → Prog β} (hp : Strict p) (hf : ∀ a, Strict (f a)) :
    Strict (p >>= f) := by
  induction p with
  | pure a => exact hf a
  | raise e => trivial
  | await o k ih =>
      cases o with
      | selectCandles query =>
          refine ⟨fun e => ?_, fun rows => ih (.ok rows) (hp.2 rows)⟩
          obtain ⟨e', he'⟩ := hp.1 e
          exact ⟨e', congrArg (Coro.bind · f) he'⟩
      | _ => exact hp.elim

variable (F : Type) [PyFloat F]

/-- Rule classes all of which are strict. -/
def StrictClasses (classes : RuleClasses) : Prop :=
  ∀ t cls, classes t = some cls → ∀ config candle, Strict (cls.evaluate config candle)

theorem strict_alwaysMatches : StrictClasses alwaysMatches := by
  intro t cls hcls config candle
  obtain rfl := Option.some.inj hcls
  trivial

/-! ## §2. In a session. -/

/-- **A strict program returns what it computes from the candle table**, while the rest of
the system stores no candles; a statement that fails leaves the table as it was. -/
theorem wp_onStore {ι : Type} [DecidableEq ι] {i : ι} {ok : Op → Input → World ι → Prop}
    {R G : World ι → World ι → Prop} (hR : ∀ w w', R w w' → w'.candles = w.candles)
    (hG : ∀ query inp w r w', World.perform i (.selectCandles query) inp w = some (r, w') →
      G w w')
    {p : Prog α} (hp : Strict p) {w : World ι} {candles : Table Candle.key}
    (hw : w.candles = candles) :
    Coro.wp (World.perform i) ok R G
      (fun a w' => onStore candles.rows p = .ok a ∧ w'.candles = candles)
      (fun _ w' => w'.candles = candles) p w := by
  induction p generalizing w with
  | pure a => exact ⟨rfl, hw⟩
  | raise e => exact hw
  | await o k ih =>
      cases o with
      | selectCandles query =>
          intro w₁ hrely inp r w₂ _ hperf
          refine ⟨hG query inp w₁ r w₂ hperf, ?_⟩
          have hw₁ : (w₁.tick inp.elapsed).candles = candles := (hR w w₁ hrely).trans hw
          obtain ⟨-, rfl, e, rfl⟩ | ⟨-, rfl, e, -, rfl⟩ | ⟨-, -, hbody⟩ :=
            World.statement_cases hperf
          · obtain ⟨e', he'⟩ := hp.1 e
            rw [he']
            exact hw₁
          · obtain ⟨e', he'⟩ := hp.1 e
            rw [he']
            exact hw₁
          · obtain ⟨rfl, rfl⟩ := World.answer_inj hbody
            rw [hw₁]
            exact ih (.ok (query candles.rows)) (hp.2 _) hw₁
      | _ => exact hp.elim

end Pulse
