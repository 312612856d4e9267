import WinMiniTools.Hierarchies
import WinMiniTools.ProcessNames

/-!
The enumeration of child windows (`EnumWindow.cpp`, `GetOwnerWnd.cpp`).
`EnumChildWindows` of the system calls its callback with every window under the
given one, at any depth, and the callback starts it again under each window that
it is called with. So what it passes to `DealTheWndHandle` is what is retraced
under the root (`enum_retraced`), a window once more for every choice of windows
between the root and it (`passed_count`): every window is dealt with once
exactly when no child of the root has children (`deals_each_once_iff`).
-/
namespace WinMiniTools.ChildWindows
open WinMiniTools.Hierarchies WinMiniTools.ProcessNames
universe u v

/-- The windows during an enumeration, which does not change them: `below` are
    those that `EnumChildWindows` calls its callback with, in the order of the
    system, and all of them are windows. -/
structure Windows (Hwnd : Type u) extends Listed Hwnd where
  null : Hwnd
  isWindow : Hwnd → Bool
  windows : ∀ {v w}, toListed.Under v w → w ≠ null ∧ isWindow w = true

variable {Hwnd : Type u} {State Rest : Type v}

/-! ### The logs of the tools -/

/-- The counter of a tool and its log; what else is in a line, a tool looks up. -/
structure Line (Hwnd : Type u) (Rest : Type v) where
  nCnt : Nat
  hWnd : Hwnd
  rest : Rest
structure Tool (Hwnd : Type u) (Rest : Type v) where
  nCnt : Nat
  log : List (Line Hwnd Rest)

def logWnd (lookUp : Nat → Hwnd → Rest) (t : Tool Hwnd Rest) (hWnd : Hwnd) : Tool Hwnd Rest :=
  let nCnt := t.nCnt + 1
  { nCnt := nCnt, log := t.log ++ [{ nCnt := nCnt, hWnd := hWnd, rest := lookUp nCnt hWnd }] }

/-- `DealTheWndHandle` of `EnumWindow.cpp`: the process of a window. -/
def EnumWindow.dealTheWndHandle (procOf : Hwnd → BitVec 32) : Tool Hwnd (BitVec 32) → Hwnd → Tool Hwnd (BitVec 32) :=
  logWnd (fun _ hWnd => procOf hWnd)

/-- `DealTheWndHandle` of `GetOwnerWnd.cpp`: the process, its name by the snapshot
    that this call makes, and the owner. -/
def GetOwnerWnd.dealTheWndHandle (procOf : Hwnd → BitVec 32) (snapshots : Nat → Option (List ProcessEntry32))
    (gwOwner : Hwnd → Option Hwnd) :
    Tool Hwnd (BitVec 32 × List Char × Option Hwnd) → Hwnd → Tool Hwnd (BitVec 32 × List Char × Option Hwnd) :=
  logWnd (fun nCnt hWnd =>
    (procOf hWnd, (getProcessName (snapshots nCnt) [] (procOf hWnd)).2, gwOwner hWnd))

theorem logWnd_foldl (lookUp : Nat → Hwnd → Rest) (calls : List Hwnd) (t : Tool Hwnd Rest) :
    (calls.foldl (logWnd lookUp) t).nCnt = t.nCnt + calls.length ∧
      (calls.foldl (logWnd lookUp) t).log.map Line.hWnd = t.log.map Line.hWnd ++ calls := by
  induction calls generalizing t with
  | nil => exact ⟨rfl, (List.append_nil _).symm⟩
  | cons hWnd calls ih =>
    obtain ⟨counted, logged⟩ := ih (logWnd lookUp t hWnd)
    have next : (logWnd lookUp t hWnd).nCnt = t.nCnt + 1 := rfl
    rw [List.foldl_cons, counted, logged]
    constructor
    · rw [List.length_cons]
      omega
    · rw [logWnd, List.map_append, List.append_assoc]
      rfl

/-! ### The enumeration -/

section
variable [DecidableEq Hwnd]

/-- `EnumChildWindowProc`, by what `DealTheWndHandle` does to the tool. It always
    returns true, so that the system goes on. -/
def enumChildWindowProc (S : Windows Hwnd) (dealTheWndHandle : State → Hwnd → State) (s : State) (hWnd : Hwnd) : State :=
  if hWnd = S.null ∨ S.isWindow hWnd = false then s
  else (S.below hWnd).foldl (fun s w => enumChildWindowProc S dealTheWndHandle s w) (dealTheWndHandle s hWnd)
termination_by (S.below hWnd).length
decreasing_by
  rename_i member
  exact S.below_shorter member

/-- `EnumChildWindows` with this callback. -/
def enumChildWindows (S : Windows Hwnd) (dealTheWndHandle : State → Hwnd → State) (s : State) (root : Hwnd) : State :=
  (S.below root).foldl (enumChildWindowProc S dealTheWndHandle) s

/-- The windows that are passed to `DealTheWndHandle`, in order. -/
def passed (S : Windows Hwnd) (root : Hwnd) : List Hwnd := enumChildWindows S (fun calls hWnd => calls ++ [hWnd]) [] root

/-- Every window under the root is dealt with exactly once. -/
def DealsEachOnce (S : Windows Hwnd) (root : Hwnd) : Prop := ∀ w, S.Under root w → (passed S root).count w = 1

/-! ### The calls -/

/-- Called with a window, the callback deals with it and all that is retraced under it. -/
theorem proc_retraced (S : Windows Hwnd) (dealTheWndHandle : State → Hwnd → State) {root hWnd : Hwnd}
    (under : S.Under root hWnd) (s : State) :
    enumChildWindowProc S dealTheWndHandle s hWnd = (hWnd :: S.retraced hWnd).foldl dealTheWndHandle s := by
  induction hWnd using Listed.retraced.induct (L := S.toListed) generalizing root s with
  | case1 hWnd ih =>
    obtain ⟨notNull, isWindow⟩ := S.windows under
    have goesOn : ¬ (hWnd = S.null ∨ S.isWindow hWnd = false) := by simp [notNull, isWindow]
    rw [enumChildWindowProc, if_neg goesOn, List.foldl_cons, Listed.retraced, List.foldl_flatMap]
    apply List.foldl_ext
    intro t w listed
    exact ih w listed (S.mem_below.mp listed) t

theorem enum_retraced (S : Windows Hwnd) (dealTheWndHandle : State → Hwnd → State) (s : State) (root : Hwnd) :
    enumChildWindows S dealTheWndHandle s root = (S.retraced root).foldl dealTheWndHandle s := by
  rw [enumChildWindows, Listed.retraced, List.foldl_flatMap]
  apply List.foldl_ext
  intro t w listed
  exact proc_retraced S dealTheWndHandle (S.mem_below.mp listed) t

theorem passed_eq (S : Windows Hwnd) (root : Hwnd) : passed S root = S.retraced root := by
  rw [passed, enum_retraced, List.foldl_append_eq_append, List.nil_append, ← List.flatMap_def, List.flatMap_singleton']

theorem mem_passed (S : Windows Hwnd) {root w : Hwnd} : w ∈ passed S root ↔ S.Under root w := by
  rw [passed_eq, S.mem_retraced]

/-- Either tool counts and logs the windows that are passed. -/
theorem enum_logs (S : Windows Hwnd) (lookUp : Nat → Hwnd → Rest) (root : Hwnd) :
    (enumChildWindows S (logWnd lookUp) ⟨0, []⟩ root).nCnt = (passed S root).length ∧
      (enumChildWindows S (logWnd lookUp) ⟨0, []⟩ root).log.map Line.hWnd = passed S root := by
  obtain ⟨counted, logged⟩ := logWnd_foldl lookUp (S.retraced root) ⟨0, []⟩
  rw [enum_retraced, passed_eq]
  exact ⟨counted.trans (Nat.zero_add _), logged⟩

/-- Each window between the root and a window doubles the calls for it. -/
theorem passed_count (S : Windows Hwnd) {root w : Hwnd} (under : S.Under root w) :
    (passed S root).count w = 2 ^ (S.level w - S.level root - 1) := by
  rw [passed_eq, S.count_retraced under]

/-- Every window under the root is dealt with once exactly when the windows under
    it are its children. -/
theorem deals_each_once_iff (S : Windows Hwnd) (root : Hwnd) :
    DealsEachOnce S root ↔ ∀ child w, S.parent child = some root → S.parent w ≠ some child := by
  constructor
  · intro once child w first second
    have under : S.Under root w := .tail (.single first) second
    have count := once w under
    rw [passed_count S under, S.lower second, S.lower first, Nat.add_assoc, Nat.add_sub_cancel_left] at count
    exact absurd count (by decide)
  · intro shallow w under
    have child : S.parent w = some root := by
      rcases Relation.TransGen.head'_iff.mp under with ⟨child, first, path⟩
      rcases Relation.ReflTransGen.cases_head path with rfl | ⟨grandchild, second, _⟩
      · exact first
      · exact absurd second (shallow child grandchild first)
    rw [passed_count S under, S.lower child, Nat.add_sub_cancel_left]
    rfl

end

/-- A window 1 with a child 2, which has a child 3. -/
def nestedParent : Fin 4 → Option (Fin 4)
  | 2 => some 1
  | 3 => some 2
  | _ => none
def nestedBelow : Fin 4 → List (Fin 4)
  | 1 => [2, 3]
  | 2 => [3]
  | _ => []

def nestedWindows : Listed (Fin 4) where
  parent := nestedParent
  level := Fin.val
  lower := by decide
  below := nestedBelow
  once := by decide
  mem_below := by
    have first : ∀ a b, nestedParent b = some a → b ∈ nestedBelow a := by decide
    have deeper : ∀ a b c, nestedParent c = some b → b ∈ nestedBelow a → c ∈ nestedBelow a := by decide
    have pairs : ∀ a b, b ∈ nestedBelow a → (a = 1 ∧ b = 2) ∨ (a = 1 ∧ b = 3) ∨ (a = 2 ∧ b = 3) := by decide
    intro a b
    constructor
    · intro member
      rcases pairs a b member with ⟨rfl, rfl⟩ | ⟨rfl, rfl⟩ | ⟨rfl, rfl⟩
      · exact .single rfl
      · exact .tail (.single rfl) rfl
      · exact .single rfl
    · intro under
      induction under with
      | single step => exact first a _ step
      | tail _ step ih => exact deeper a _ _ step ih

def nested : Windows (Fin 4) where
  toListed := nestedWindows
  null := 0
  isWindow := fun w => w ≠ 0
  windows := by
    have notNull : ∀ v w, w ∈ nestedBelow v → w ≠ 0 ∧ decide (w ≠ 0) = true := by decide
    intro v w under
    exact notNull v w (nestedWindows.mem_below.mpr under)

/-- The callback deals with 3 when it is called with it, and again under 2. -/
theorem grandchild_dealt_twice : ¬ DealsEachOnce nested 1 := by
  intro once
  have under : nested.Under 1 3 := nestedWindows.mem_below.mp (by decide)
  have count := once 3 under
  rw [passed_count nested under] at count
  exact absurd count (by decide)

end WinMiniTools.ChildWindows
