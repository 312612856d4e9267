import WinMiniTools.Machines
import WinMiniTools.Successors

/-!
The walk over the top-level windows (`GetWindow.cpp`). The program holds one
window, logs it and goes on to its successor in the z-order, while other
processes create, destroy and reorder windows between any two of its steps. What
it has logged and what is ahead of it are one list that its own steps do not
change (`walkStep_keeps`), so a window is logged as often as it was ahead at
first, and once more or less for every change that carries it from behind the
walk to ahead of it or back (`logged_count`). A walk logs every window that
lasts exactly once, exactly when both kinds of changes balance for each of them
(`logs_each_once_iff`); this is so where no change touches the window in hand or
carries another one across the walk (`quiet_logs_each_once`).
-/
namespace WinMiniTools.WindowWalk
open WinMiniTools.Machines WinMiniTools.Successors
universe u

/-- The top-level windows, from the top of the z-order down, each once. -/
structure Desktop (Hwnd : Type u) where
  zorder : List Hwnd
  nodup : zorder.Nodup

/-- What other processes do to the windows. -/
inductive Change (Hwnd : Type u) where
  | create (hWnd : Hwnd) (above : Nat)
  | destroy (hWnd : Hwnd)
  | reorder (zorder : List Hwnd)

/-- Where the program is: before its first call, or at a call with the window in
    `hWndPrev`, which is null in a test only. -/
inductive Place (Hwnd : Type u) where
  | start
  | tests (hWndPrev : Option Hwnd)
  | deals (hWndPrev : Hwnd)
  | nexts (hWndPrev : Hwnd)
  | stopped

/-- A line of the log. -/
structure Line (Hwnd : Type u) where
  nCnt : Nat
  hWnd : Hwnd
  procId : BitVec 32

structure State (Hwnd : Type u) where
  desktop : Desktop Hwnd
  place : Place Hwnd
  nCnt : Nat
  log : List (Line Hwnd)

inductive Label (Hwnd : Type u) where
  | walk
  | change (c : Change Hwnd)

variable {Hwnd : Type u}

/-! ### The system -/

theorem nodup_insert {l : List Hwnd} (nodup : l.Nodup) {hWnd : Hwnd} (fresh : hWnd ∉ l) (above : Nat) :
    (l.take above ++ hWnd :: l.drop above).Nodup := by
  rw [List.nodup_middle, List.take_append_drop]
  exact List.nodup_cons.mpr ⟨fresh, nodup⟩

variable [DecidableEq Hwnd]

def Desktop.isWindow (d : Desktop Hwnd) (hWnd : Hwnd) : Bool := hWnd ∈ d.zorder
/-- `GetWindow` of the desktop window with `GW_CHILD`. -/
def Desktop.gwChild (d : Desktop Hwnd) : Option Hwnd := d.zorder.head?
/-- `GetWindow` with `GW_HWNDNEXT`. -/
def Desktop.gwHwndNext (d : Desktop Hwnd) (hWnd : Hwnd) : Option Hwnd := successor hWnd d.zorder

/-- The desktop after a change, if it is possible: a window is created below as
    many others as given, and a new z-order has the same windows. -/
def Desktop.change (d : Desktop Hwnd) : Change Hwnd → Option (Desktop Hwnd)
  | .create hWnd above =>
    if fresh : hWnd ∉ d.zorder then
      some ⟨d.zorder.take above ++ hWnd :: d.zorder.drop above, nodup_insert d.nodup fresh above⟩
    else none
  | .destroy hWnd => if hWnd ∈ d.zorder then some ⟨d.zorder.erase hWnd, d.nodup.erase hWnd⟩ else none
  | .reorder zorder => if same : zorder.Perm d.zorder then some ⟨zorder, same.nodup_iff.mpr d.nodup⟩ else none

/-! ### The program -/

/-- `DealTheWndHandle`. A window that is gone has no process. -/
def dealTheWndHandle (procOf : Hwnd → BitVec 32) (s : State Hwnd) (hWnd : Hwnd) : State Hwnd :=
  let dwProcId := if s.desktop.isWindow hWnd then procOf hWnd else 0
  let nCnt := s.nCnt + 1
  { s with nCnt := nCnt, log := s.log ++ [⟨nCnt, hWnd, dwProcId⟩] }

/-- One call of `main`. -/
def walkStep (procOf : Hwnd → BitVec 32) (s : State Hwnd) : Option (State Hwnd) :=
  match s.place with
  | .start => some { s with place := .tests s.desktop.gwChild }
  | .tests none => some { s with place := .stopped }
  | .tests (some hWndPrev) =>
    some { s with place := if s.desktop.isWindow hWndPrev then .deals hWndPrev else .stopped }
  | .deals hWndPrev => some { dealTheWndHandle procOf s hWndPrev with place := .nexts hWndPrev }
  | .nexts hWndPrev => some { s with place := .tests (s.desktop.gwHwndNext hWndPrev) }
  | .stopped => none

def walk (procOf : Hwnd → BitVec 32) : Machine (State Hwnd) (Label Hwnd) where
  step
    | s, .walk => walkStep procOf s
    | s, .change c => (s.desktop.change c).map (fun desktop => { s with desktop := desktop })

def started (d : Desktop Hwnd) : State Hwnd where
  desktop := d
  place := .start
  nCnt := 0
  log := []

/-! ### What is logged, and what is ahead -/

def logged (s : State Hwnd) : List Hwnd := s.log.map Line.hWnd

/-- The windows that the walk would still log, in order, if nothing changed. -/
def Place.ahead (zorder : List Hwnd) : Place Hwnd → List Hwnd
  | .start => zorder
  | .tests none => []
  | .tests (some hWndPrev) => onward hWndPrev zorder
  | .deals hWndPrev => hWndPrev :: behind hWndPrev zorder
  | .nexts hWndPrev => behind hWndPrev zorder
  | .stopped => []
def ahead (s : State Hwnd) : List Hwnd := s.place.ahead s.desktop.zorder

theorem ahead_nodup (s : State Hwnd) : (ahead s).Nodup := by
  obtain ⟨desktop, place, nCnt, log⟩ := s
  have nodup := desktop.nodup
  cases place with
  | start => exact nodup
  | tests hWndPrev =>
    cases hWndPrev with
    | none => exact List.nodup_nil
    | some hWnd => exact nodup.sublist (onward_suffix hWnd _).sublist
  | deals hWnd => exact List.nodup_cons.mpr ⟨not_mem_behind nodup hWnd, nodup.sublist (behind_suffix hWnd _).sublist⟩
  | nexts hWnd => exact nodup.sublist (behind_suffix hWnd _).sublist
  | stopped => exact List.nodup_nil

/-- A step of the program takes the first window ahead to the end of the log, or
    leaves both alone. -/
theorem walkStep_keeps {procOf : Hwnd → BitVec 32} {s t : State Hwnd} (step : walkStep procOf s = some t) :
    logged t ++ ahead t = logged s ++ ahead s := by
  obtain ⟨desktop, place, nCnt, log⟩ := s
  cases place with
  | start =>
    cases step
    show log.map Line.hWnd ++ Place.ahead desktop.zorder (.tests desktop.zorder.head?) = _
    cases top : desktop.zorder with
    | nil => simp [logged, ahead, Place.ahead, top]
    | cons hWnd rest => simp [logged, ahead, Place.ahead, top, onward_head]
  | tests hWndPrev =>
    cases hWndPrev with
    | none => cases step; rfl
    | some hWnd =>
      cases step
      by_cases window : hWnd ∈ desktop.zorder
      · simp [logged, ahead, Place.ahead, Desktop.isWindow, window, onward_of_mem window]
      · simp [logged, ahead, Place.ahead, Desktop.isWindow, window, onward_of_not_mem window]
  | deals hWnd =>
    cases step
    simp [logged, ahead, Place.ahead, dealTheWndHandle]
  | nexts hWnd =>
    cases step
    show log.map Line.hWnd ++ Place.ahead desktop.zorder (.tests (successor hWnd desktop.zorder)) = _
    obtain ⟨none, last⟩ | ⟨n, some, later⟩ := onward_successor desktop.nodup hWnd
    · rw [none]
      simp [logged, ahead, Place.ahead, last]
    · rw [some]
      simp [logged, ahead, Place.ahead, later]
  | stopped => cases step

/-- A change carries a window back when the walk was to come to it and is no
    more, and on when it has left it behind and is to come to it (again). -/
def passedBy (w : Hwnd) (s : State Hwnd) (a : Label Hwnd) (t : State Hwnd) : Nat :=
  match a with
  | .walk => 0
  | .change _ => if w ∈ ahead s ∧ w ∉ ahead t then 1 else 0
def broughtAhead (w : Hwnd) (s : State Hwnd) (a : Label Hwnd) (t : State Hwnd) : Nat :=
  match a with
  | .walk => 0
  | .change _ => if w ∉ ahead s ∧ w ∈ ahead t then 1 else 0

/-- How often a window is logged or ahead changes by these changes only. -/
theorem step_balance (procOf : Hwnd → BitVec 32) (w : Hwnd) (s : State Hwnd) (a : Label Hwnd) (t : State Hwnd)
    (step : (walk procOf).step s a = some t) :
    (logged t ++ ahead t).count w + passedBy w s a t = (logged s ++ ahead s).count w + broughtAhead w s a t := by
  cases a with
  | walk =>
    have keeps : logged t ++ ahead t = logged s ++ ahead s := walkStep_keeps step
    rw [keeps]
    rfl
  | change c =>
    obtain ⟨desktop, _, rfl⟩ := Option.map_eq_some_iff.mp step
    simp only [List.count_append, passedBy, broughtAhead, (ahead_nodup _).count]
    show (logged s).count w + _ + _ = _
    by_cases before : w ∈ ahead s
    · by_cases after : w ∈ ahead { s with desktop := desktop }
      · simp [before, after]
      · simp [before, after]
    · by_cases after : w ∈ ahead { s with desktop := desktop }
      · simp [before, after]
      · simp [before, after]

/-! ### Whole walks -/

/-- The window exists in every state that the run comes through. -/
def Lasts (procOf : Hwnd → BitVec 32) (d : Desktop Hwnd) (labels : List (Label Hwnd)) (w : Hwnd) : Prop :=
  (walk procOf).Along (fun s => w ∈ s.desktop.zorder) (started d) labels

instance (procOf : Hwnd → BitVec 32) (d : Desktop Hwnd) (labels : List (Label Hwnd)) (w : Hwnd) :
    Decidable (Lasts procOf d labels w) :=
  inferInstanceAs (Decidable (Machine.Along _ _ _ _))

/-- How often a window is logged by the time the walk stops. -/
theorem logged_count {procOf : Hwnd → BitVec 32} {d : Desktop Hwnd} {labels : List (Label Hwnd)} {t : State Hwnd}
    (ran : (walk procOf).run (started d) labels = some t) (stops : t.place = .stopped) {w : Hwnd}
    (lasts : Lasts procOf d labels w) :
    (logged t).count w + (walk procOf).total (passedBy w) (started d) labels =
      1 + (walk procOf).total (broughtAhead w) (started d) labels := by
  have balance := (walk procOf).run_balance (step_balance procOf w) ran
  have last : ahead t = [] := by rw [ahead, stops]; rfl
  have initial : w ∈ d.zorder := (walk procOf).along_first lasts
  have first : (logged (started d) ++ ahead (started d)).count w = 1 := List.count_eq_one_of_mem d.nodup initial
  rw [last, List.append_nil, first] at balance
  exact balance

/-- Every window that lasts is logged exactly once. -/
def LogsEachOnce (procOf : Hwnd → BitVec 32) (d : Desktop Hwnd) (labels : List (Label Hwnd)) (t : State Hwnd) : Prop :=
  ∀ w, Lasts procOf d labels w → (logged t).count w = 1

/-- A walk that stops has logged every lasting window exactly once, exactly when
    each was carried as often past the walk as ahead of it. -/
theorem logs_each_once_iff {procOf : Hwnd → BitVec 32} {d : Desktop Hwnd} {labels : List (Label Hwnd)}
    {t : State Hwnd} (ran : (walk procOf).run (started d) labels = some t) (stops : t.place = .stopped) :
    LogsEachOnce procOf d labels t ↔
      ∀ w, Lasts procOf d labels w →
        (walk procOf).total (passedBy w) (started d) labels =
          (walk procOf).total (broughtAhead w) (started d) labels := by
  constructor
  · intro once w lasts
    have balance := logged_count ran stops lasts
    rw [once w lasts] at balance
    omega
  · intro even w lasts
    have balance := logged_count ran stops lasts
    rw [even w lasts] at balance
    omega

/-! ### Quiet changes -/

/-- The window in hand. -/
def Place.hand : Place Hwnd → Option Hwnd
  | .start => none
  | .tests hWndPrev => hWndPrev
  | .deals hWndPrev => some hWndPrev
  | .nexts hWndPrev => some hWndPrev
  | .stopped => none

/-- A change that leaves the window in hand alone, and keeps the windows ahead of
    the walk ahead of it. -/
def Quiet (s : State Hwnd) (a : Label Hwnd) (t : State Hwnd) : Prop :=
  match a with
  | .walk => True
  | .change (.create hWnd _) => s.place.hand ≠ some hWnd
  | .change (.destroy hWnd) => s.place.hand ≠ some hWnd
  | .change (.reorder _) => ∀ w, w ∈ ahead s ↔ w ∈ ahead t

/-- Without a window that is not in hand, the same others are ahead. -/
theorem mem_ahead_erase {zorder : List Hwnd} (nodup : zorder.Nodup) {place : Place Hwnd} {v w : Hwnd}
    (notHand : place.hand ≠ some v) (other : w ≠ v) :
    w ∈ place.ahead (zorder.erase v) ↔ w ∈ place.ahead zorder := by
  cases place with
  | start => exact List.mem_erase_of_ne other
  | tests hWndPrev =>
    cases hWndPrev with
    | none => exact Iff.rfl
    | some hWnd =>
      have apart : hWnd ≠ v := fun same => notHand (congrArg some same)
      show w ∈ onward hWnd (zorder.erase v) ↔ w ∈ onward hWnd zorder
      rw [mem_onward_iff, mem_onward_iff, List.mem_erase_of_ne apart, mem_behind_erase nodup apart.symm other.symm]
  | deals hWnd =>
    have apart : hWnd ≠ v := fun same => notHand (congrArg some same)
    show w ∈ hWnd :: behind hWnd (zorder.erase v) ↔ w ∈ hWnd :: behind hWnd zorder
    rw [List.mem_cons, List.mem_cons, mem_behind_erase nodup apart.symm other.symm]
  | nexts hWnd =>
    have apart : hWnd ≠ v := fun same => notHand (congrArg some same)
    exact mem_behind_erase nodup apart.symm other.symm
  | stopped => exact Iff.rfl

/-- A window that lasts is ahead of the walk after a quiet change as before it. -/
theorem quiet_keeps {procOf : Hwnd → BitVec 32} {s t : State Hwnd} {c : Change Hwnd}
    (step : (walk procOf).step s (.change c) = some t) (quiet : Quiet s (.change c) t) {w : Hwnd}
    (before : w ∈ s.desktop.zorder) (after : w ∈ t.desktop.zorder) : w ∈ ahead s ↔ w ∈ ahead t := by
  obtain ⟨desktop, changed, rfl⟩ := Option.map_eq_some_iff.mp step
  cases c with
  | create hWnd above =>
    obtain ⟨fresh, made⟩ := Option.dite_none_right_eq_some.mp changed
    have other : w ≠ hWnd := by
      rintro rfl
      exact fresh before
    have erased : desktop.zorder.erase hWnd = s.desktop.zorder := by
      rw [← Option.some.inj made, List.erase_append_right _ (fun member => fresh (List.mem_of_mem_take member)),
        List.erase_cons_head, List.take_append_drop]
    show w ∈ s.place.ahead s.desktop.zorder ↔ _
    rw [← erased]
    exact mem_ahead_erase desktop.nodup quiet other
  | destroy hWnd =>
    obtain ⟨_, made⟩ := Option.ite_none_right_eq_some.mp changed
    have erased : desktop.zorder = s.desktop.zorder.erase hWnd := by rw [← Option.some.inj made]
    have other : w ≠ hWnd := by
      rintro rfl
      rw [show ({ s with desktop := desktop } : State Hwnd).desktop = desktop from rfl, erased] at after
      exact s.desktop.nodup.not_mem_erase after
    show _ ↔ w ∈ s.place.ahead desktop.zorder
    rw [erased]
    exact (mem_ahead_erase s.desktop.nodup quiet other).symm
  | reorder zorder => exact quiet w

/-- A quiet step carries no window that lasts past the walk or ahead of it. -/
theorem quiet_carries_none {procOf : Hwnd → BitVec 32} {s t : State Hwnd} {a : Label Hwnd}
    (step : (walk procOf).step s a = some t) (quiet : Quiet s a t) {w : Hwnd} (before : w ∈ s.desktop.zorder)
    (after : w ∈ t.desktop.zorder) : passedBy w s a t = 0 ∧ broughtAhead w s a t = 0 := by
  cases a with
  | walk => exact ⟨rfl, rfl⟩
  | change c =>
    have keeps := quiet_keeps step quiet before after
    constructor
    · exact if_neg (fun ⟨was, gone⟩ => gone (keeps.mp was))
    · exact if_neg (fun ⟨wasNot, comes⟩ => wasNot (keeps.mpr comes))

/-- A walk whose changes are all quiet logs every lasting window exactly once. -/
theorem quiet_logs_each_once {procOf : Hwnd → BitVec 32} {d : Desktop Hwnd} {labels : List (Label Hwnd)}
    {t : State Hwnd} (ran : (walk procOf).run (started d) labels = some t) (stops : t.place = .stopped)
    (quiet : (walk procOf).Steps Quiet (started d) labels) : LogsEachOnce procOf d labels t := by
  intro w lasts
  have passed : (walk procOf).total (passedBy w) (started d) labels = 0 :=
    (walk procOf).total_zero
      (fun _ _ _ step before after quiet => (quiet_carries_none step quiet before after).1) lasts quiet
  have brought : (walk procOf).total (broughtAhead w) (started d) labels = 0 :=
    (walk procOf).total_zero
      (fun _ _ _ step before after quiet => (quiet_carries_none step quiet before after).2) lasts quiet
  have balance := logged_count ran stops lasts
  omega

/-- Two windows, and a third one that is created behind them during the walk. -/
def twoWindows : Desktop Nat where
  zorder := [1, 2]
  nodup := by decide

theorem two_windows_logged : ∃ t, (walk (fun _ => 4)).run (started twoWindows)
      [.walk, .walk, .change (.create 3 2), .walk, .walk, .walk, .walk, .walk, .walk, .walk, .walk, .walk] = some t ∧
    t.place = .stopped ∧ LogsEachOnce (fun _ => 4) twoWindows
      [.walk, .walk, .change (.create 3 2), .walk, .walk, .walk, .walk, .walk, .walk, .walk, .walk, .walk] t := by
  refine ⟨_, rfl, rfl, (logs_each_once_iff rfl rfl).mpr ?_⟩
  intro w lasts
  have initial : w ∈ [1, 2] := (walk (fun _ => 4)).along_first lasts
  rcases List.mem_cons.mp initial with rfl | second
  · rfl
  · rw [List.mem_singleton.mp second]
    rfl

/-- The second window comes to the top while the first is in hand. -/
theorem raised_window_missed : ∃ labels t, (walk (fun _ => 4)).run (started twoWindows) labels = some t ∧
    t.place = .stopped ∧ ¬ LogsEachOnce (fun _ => 4) twoWindows labels t := by
  refine ⟨[.walk, .walk, .walk, .change (.reorder [2, 1]), .walk, .walk], _, rfl, rfl, ?_⟩
  intro once
  have lasts : Lasts (fun _ => 4) twoWindows
      [.walk, .walk, .walk, .change (.reorder [2, 1]), .walk, .walk] 2 := by
    decide
  have missed := once 2 lasts
  revert missed
  decide

end WinMiniTools.WindowWalk
