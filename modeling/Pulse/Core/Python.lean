/-
  Pulse.Core.Python
  ─────────────────
  What the program takes from the language: exceptions with their class and
  text, and JSON values with truthiness and the conversions `int(x)` and
  `Decimal(str(x))`.

  A JSON number with a fraction or an exponent stands here as it is written;
  what the program has of it is the nearest double.
-/
import Pulse.Core.Casing
import Pulse.Core.Double
import Pulse.Core.Numeral
import Mathlib.Data.List.Forall2

namespace Pulse

/-! ## §1. Exceptions. -/

/-- The exception classes the program tells apart, and those it meets. -/
inductive ExnClass where
  | integrityError
  | operationalError
  | pendingRollbackError
  | staleDataError
  | invalidRequestError
  | httpError
  | valueError
  | typeError
  | overflowError
  | osError
  | invalidOperation
  | attributeError
  | keyError
  | zeroDivisionError
  | other
  deriving DecidableEq, Repr

/-- An exception; `msg` is what `str(e)` shows. -/
structure PyErr where
  cls : ExnClass
  msg : String
  deriving DecidableEq, Repr

/-- What returned, returned part by part. -/
theorem bind_ok {ε α β : Type} {x : Except ε α} {f : α → Except ε β} {b : β}
    (h : x >>= f = .ok b) : ∃ a, x = .ok a ∧ f a = .ok b := by
  cases x with
  | ok a => exact ⟨a, rfl, h⟩
  | error e => exact absurd h (by simp [bind, Except.bind])

theorem ok_bind {ε α β : Type} (a : α) (f : α → Except ε β) :
    (Except.ok a : Except ε α) >>= f = f a := rfl

theorem except_map_bind {ε α β γ : Type} (x : Except ε α) (f : α → β) (g : β → Except ε γ) :
    x.map f >>= g = x >>= fun a => g (f a) := by
  cases x <;> rfl

theorem except_bind_map {ε α β γ : Type} (x : Except ε α) (g : α → Except ε β) (f : β → γ) :
    (x >>= g).map f = x >>= fun a => (g a).map f := by
  cases x <;> rfl

/-- A sequence raises nothing if no part does. -/
theorem bind_ok_iff {ε α β : Type} {x : Except ε α} {f : α → Except ε β} :
    (∃ b, x >>= f = .ok b) ↔ ∃ a, x = .ok a ∧ ∃ b, f a = .ok b := by
  constructor
  · rintro ⟨b, hb⟩
    obtain ⟨a, ha, hfa⟩ := bind_ok hb
    exact ⟨a, ha, b, hfa⟩
  · rintro ⟨a, rfl, b, hb⟩
    exact ⟨b, hb⟩

/-- `[f(x) for x in xs]` where nothing is raised. -/
theorem mapM_forall₂ {ε α β : Type} {f : α → Except ε β} {xs : List α} {ys : List β}
    (h : xs.mapM f = .ok ys) : List.Forall₂ (fun x y => f x = .ok y) xs ys := by
  induction xs generalizing ys with
  | nil =>
      obtain rfl := Except.ok.inj h
      exact .nil
  | cons x xs ih =>
      rw [List.mapM_cons] at h
      obtain ⟨z, hz, h⟩ := bind_ok h
      obtain ⟨zs, hzs, h⟩ := bind_ok h
      obtain rfl := Except.ok.inj h
      exact .cons hz (ih hzs)

/-- Every item has its answer. -/
theorem mapM_mem {ε α β : Type} {f : α → Except ε β} {xs : List α} {ys : List β}
    (h : xs.mapM f = .ok ys) : ∀ x ∈ xs, ∃ y ∈ ys, f x = .ok y := by
  have hall := mapM_forall₂ h
  clear h
  induction hall with
  | nil => exact fun x hx => absurd hx (by simp)
  | cons hxy _ ih =>
      intro x hx
      rcases List.mem_cons.mp hx with rfl | hx
      · exact ⟨_, List.mem_cons_self, hxy⟩
      · obtain ⟨y, hy, hfy⟩ := ih x hx
        exact ⟨y, List.mem_cons_of_mem _ hy, hfy⟩

/-- Nothing is raised if no item raises. -/
theorem mapM_of_forall {ε α β : Type} {f : α → Except ε β} (xs : List α)
    (h : ∀ x ∈ xs, ∃ y, f x = .ok y) : ∃ ys, xs.mapM f = .ok ys := by
  induction xs with
  | nil => exact ⟨[], rfl⟩
  | cons x xs ih =>
      obtain ⟨y, hy⟩ := h x List.mem_cons_self
      obtain ⟨ys, hys⟩ := ih fun z hz => h z (List.mem_cons_of_mem _ hz)
      refine ⟨y :: ys, ?_⟩
      rw [List.mapM_cons, hy, hys]
      rfl

/-- Where nothing raises, it is `map`. -/
theorem mapM_eq_map {ε α β : Type} {f : α → Except ε β} {g : α → β} {xs : List α}
    (h : ∀ x ∈ xs, f x = .ok (g x)) : xs.mapM f = .ok (xs.map g) := by
  induction xs with
  | nil => rfl
  | cons x xs ih =>
      rw [List.mapM_cons, h x List.mem_cons_self, ih fun z hz => h z (List.mem_cons_of_mem _ hz)]
      rfl

/-! ## §2. Strings. -/

/-- `if s` for an optional string: neither `None` nor empty. -/
def isSet : Option String → Bool
  | none => false
  | some s => s ≠ ""

/-! ## §3. JSON values. -/

/-- A JSON value. -/
inductive Json where
  | null
  | bool (b : Bool)
  | int (i : Int)
  /-- A number written with a fraction or an exponent. -/
  | num (q : Rat)
  | str (s : String)
  | arr (items : List Json)
  | obj (entries : List (String × Json))

namespace Json

/-- `d.get(k)`; a missing key and a JSON `null` are both `None`. -/
def get (d : List (String × Json)) (k : String) : Json :=
  match d.find? (fun e => e.1 = k) with
  | some e => e.2
  | none => .null

/-- `bool(x)`. -/
def truthy : Json → Bool
  | .null => false
  | .bool b => b
  | .int i => i ≠ 0
  | .num q => (Double.ofRat q).truthy
  | .str s => s ≠ ""
  | .arr items => !items.isEmpty
  | .obj entries => !entries.isEmpty

/-- `x or y`. -/
def or (x y : Json) : Json := if x.truthy then x else y

/-- `x is None`. -/
def isNone : Json → Bool
  | .null => true
  | _ => false

@[simp] theorem get_nil (k : String) : get [] k = .null := rfl

@[simp] theorem null_or (y : Json) : Json.null.or y = y := rfl

/-! ## §4. `int(x)` and `Decimal(str(x))`. -/

/-- `int(x)` for a double. -/
def intOfDouble (x : Double) : Except PyErr Int :=
  match x.trunc with
  | some i => .ok i
  | none => .error ⟨.overflowError, "cannot convert float infinity to integer"⟩

/-- `int(x)`. -/
def toInt : Json → Except PyErr Int
  | .int i => .ok i
  | .bool b => .ok (if b then 1 else 0)
  | .num q => intOfDouble (Double.ofRat q)
  | .str s =>
      match intOfStr s with
      | some i => .ok i
      | none => .error ⟨.valueError, "invalid literal for int() with base 10"⟩
  | .null | .arr _ | .obj _ =>
      .error ⟨.typeError, "int() argument must be a string or a number"⟩

mutual

/-- `str(x)` meets an integer of more digits than the interpreter converts. -/
def tooLong : Json → Bool
  | .int i => maxStrDigits < digitCount i.natAbs
  | .arr items => itemsTooLong items
  | .obj entries => entriesTooLong entries
  | .null | .bool _ | .num _ | .str _ => false

def itemsTooLong : List Json → Bool
  | [] => false
  | x :: xs => x.tooLong || itemsTooLong xs

def entriesTooLong : List (String × Json) → Bool
  | [] => false
  | e :: es => e.2.tooLong || entriesTooLong es

end

/-- The text of a boolean, of `None` or of a container is not a number. -/
def notNumeric : PyErr := ⟨.invalidOperation, "ConversionSyntax"⟩

def tooManyDigits : PyErr :=
  ⟨.valueError, "Exceeds the limit (4300 digits) for integer string conversion"⟩

/-- `Decimal(str(x))` for a double. -/
def decOfDouble : Double → Dec
  | .fin neg x => .fin (Double.shown neg x)
  | .inf neg => .inf neg

/-- `Decimal(str(x))`. -/
def toDec : Json → Except PyErr Dec
  | .int i => if (Json.int i).tooLong then .error tooManyDigits else .ok (.fin i)
  | .num q => .ok (decOfDouble (Double.ofRat q))
  | .str s =>
      match decOfStr s with
      | some d => .ok d
      | none => .error notNumeric
  | .arr items => .error (if itemsTooLong items then tooManyDigits else notNumeric)
  | .obj entries => .error (if entriesTooLong entries then tooManyDigits else notNumeric)
  | .null | .bool _ => .error notNumeric

end Json

end Pulse
