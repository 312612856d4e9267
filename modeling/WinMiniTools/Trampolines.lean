import Mathlib.Logic.Function.Basic
import Mathlib.Data.List.Basic

/-!
Hooks by trampolines. To hook a function its entry is overwritten with a jump to
the hook, and the pointer to the function is set to a trampoline, which runs the
overwritten entry and goes on in the function. Unhooking writes the entry back
and returns the pointer to the function (`unhook_installed`); hooks of different
functions do not touch each other (`installed_hook`, `installed_unhook`).
-/
namespace WinMiniTools.Trampolines
universe u

/-- Code that a pointer may lead to, jump tables skipped. -/
inductive Address (Fn : Type u) where
  | function (f : Fn)
  | trampoline (n : Nat)
  deriving DecidableEq

/-- What stands at the entry of a function. -/
inductive Entry (Fn : Type u) where
  | own
  | jump (hook : Fn)
  deriving DecidableEq

structure Trampoline (Fn : Type u) where
  system : Address Fn
  hook : Fn
  untouched : Entry Fn

/-- The entries, and the trampolines in order of allocation; freed ones are `none`. -/
structure Space (Fn : Type u) where
  entry : Address Fn → Entry Fn
  trampolines : List (Option (Trampoline Fn))

variable {Fn : Type u} [DecidableEq Fn]

/-- Hooks the code that a pointer leads to: the new space and the new pointer. -/
def hook (s : Space Fn) (pointer : Address Fn) (h : Fn) : Space Fn × Address Fn :=
  ({ entry := Function.update s.entry pointer (.jump h)
     trampolines := s.trampolines ++ [some { system := pointer, hook := h, untouched := s.entry pointer }] },
    .trampoline s.trampolines.length)

/-- The trampoline that a pointer leads to, unless it is freed. -/
def active (s : Space Fn) : Address Fn → Option (Trampoline Fn)
  | .function _ => none
  | .trampoline n => (s.trampolines[n]?).join

def free (s : Space Fn) : Address Fn → List (Option (Trampoline Fn))
  | .function _ => s.trampolines
  | .trampoline n => s.trampolines.set n none

/-- Unhooks by the pointer to a trampoline; other pointers change nothing. -/
def unhook (s : Space Fn) (pointer : Address Fn) : Space Fn × Address Fn :=
  match active s pointer with
  | none => (s, pointer)
  | some t => ({ entry := Function.update s.entry t.system t.untouched, trampolines := free s pointer }, t.system)

/-- The entry of `f` jumps to `h`, and the pointer leads to a trampoline for `f`
    with the entry from before. -/
structure Installed (s : Space Fn) (f : Fn) (h : Fn) (before : Entry Fn) (pointer : Address Fn) : Prop where
  entry : s.entry (.function f) = .jump h
  active : active s pointer = some { system := .function f, hook := h, untouched := before }

theorem active_hook {s : Space Fn} {pointer : Address Fn} {t : Trampoline Fn} (is : active s pointer = some t)
    (target : Address Fn) (h : Fn) : active (hook s target h).1 pointer = some t := by
  cases pointer with
  | function f => cases is
  | trampoline n =>
    simp only [active] at is ⊢
    have listed : s.trampolines[n]? = some (some t) := Option.join_eq_some_iff.mp is
    have inside := (List.getElem?_eq_some_iff.mp listed).1
    rw [hook, List.getElem?_append_left inside, listed]
    rfl

theorem installed_of_hook (s : Space Fn) (f h : Fn) :
    Installed (hook s (.function f) h).1 f h (s.entry (.function f)) (hook s (.function f) h).2 := by
  constructor
  · simp [hook]
  · simp [hook, active]

theorem hook_entry (s : Space Fn) {pointer a : Address Fn} (other : a ≠ pointer) (h : Fn) :
    (hook s pointer h).1.entry a = s.entry a :=
  Function.update_of_ne other _ _

/-- A hook of another function stays installed. -/
theorem installed_hook {s : Space Fn} {f h : Fn} {before : Entry Fn} {pointer : Address Fn}
    (installed : Installed s f h before pointer) {target : Address Fn} (other : .function f ≠ target) (k : Fn) :
    Installed (hook s target k).1 f h before pointer := by
  constructor
  · rw [hook_entry s other]
    exact installed.entry
  · exact active_hook installed.active target k

theorem unhook_installed {s : Space Fn} {f h : Fn} {before : Entry Fn} {pointer : Address Fn}
    (installed : Installed s f h before pointer) :
    (unhook s pointer).2 = .function f ∧
      (unhook s pointer).1.entry = Function.update s.entry (.function f) before := by
  rw [unhook, installed.active]
  exact ⟨rfl, rfl⟩

/-- Unhooking one function leaves the hooks of the others installed. -/
theorem installed_unhook {s : Space Fn} {f g h k : Fn} {before before' : Entry Fn} {pointer target : Address Fn}
    (installed : Installed s f h before pointer) (there : Installed s g k before' target) (other : f ≠ g) :
    Installed (unhook s target).1 f h before pointer := by
  have entry : Address.function f ≠ .function g := fun same => other (Address.function.inj same)
  constructor
  · rw [(unhook_installed there).2, Function.update_of_ne entry]
    exact installed.entry
  · have distinct : pointer ≠ target := by
      rintro rfl
      have same := installed.active.symm.trans there.active
      exact entry (Trampoline.mk.inj (Option.some.inj same)).1
    rw [unhook, there.active]
    cases pointer with
    | function _ => cases installed.active
    | trampoline n =>
      cases target with
      | function _ => cases there.active
      | trampoline m =>
        have apart : m ≠ n := fun same => distinct (by rw [same])
        simp only [active, free, List.getElem?_set_ne apart]
        exact installed.active

/-- A function with its hook installed, or as it was before. -/
def Tracked (s : Space Fn) (f : Fn) (h : Fn) (before : Entry Fn) (pointer : Address Fn) : Prop :=
  Installed s f h before pointer ∨ (s.entry (.function f) = before ∧ pointer = .function f)

theorem tracked_hook {s : Space Fn} {f h : Fn} {before : Entry Fn} {pointer : Address Fn}
    (tracked : Tracked s f h before pointer) {target : Address Fn} (other : .function f ≠ target) (k : Fn) :
    Tracked (hook s target k).1 f h before pointer := by
  rcases tracked with installed | ⟨entry, found⟩
  · exact .inl (installed_hook installed other k)
  · exact .inr ⟨by rw [hook_entry s other, entry], found⟩

/-- Unhooking returns a pointer and an entry to what they were. -/
theorem unhook_tracked {s : Space Fn} {f h : Fn} {before : Entry Fn} {pointer : Address Fn}
    (tracked : Tracked s f h before pointer) :
    (unhook s pointer).2 = .function f ∧
      (unhook s pointer).1.entry = Function.update s.entry (.function f) before := by
  rcases tracked with installed | ⟨rfl, rfl⟩
  · exact unhook_installed installed
  · exact ⟨rfl, (Function.update_eq_self _ _).symm⟩

theorem tracked_unhook {s : Space Fn} {f g h k : Fn} {before before' : Entry Fn} {pointer target : Address Fn}
    (tracked : Tracked s f h before pointer) (there : Tracked s g k before' target) (other : f ≠ g) :
    Tracked (unhook s target).1 f h before pointer := by
  rcases there with installed | ⟨_, rfl⟩
  · rcases tracked with here | ⟨entry, found⟩
    · exact .inl (installed_unhook here installed other)
    · refine .inr ⟨?_, found⟩
      rw [(unhook_installed installed).2, Function.update_of_ne (fun same => other (Address.function.inj same)), entry]
  · exact tracked

end WinMiniTools.Trampolines
