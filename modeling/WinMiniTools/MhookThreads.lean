import WinMiniTools.AddressSpaces
import Mathlib.Logic.Function.Basic
import Mathlib.Data.List.Count

/-!
How `mhook-lib` keeps the other threads of the process still while it writes code.
`SuspendOtherThreads` counts the threads of a snapshot and then suspends them one
by one, looking up to four times whether a thread is in the code to be written;
`ResumeOtherThreads` undoes what it did. Whatever the system answers, the handles
fit their buffer and are those of threads last seen outside the code
(`recorded_outside`), every handle is closed, and no thread stays suspended more
often than it was (`resume_suspend`).
-/
namespace WinMiniTools.MhookThreads

variable {w : Nat}

/-- How often a thread is suspended, and how many handles to it are open. -/
structure Thread where
  suspendCount : Nat
  handles : Nat

/-- `THREADENTRY32`, with what the system answers when the thread is opened, when it
    is suspended for the first time and the following ones, and at each look at its
    instruction pointer. -/
structure Entry (w : Nat) where
  th32OwnerProcessID : Nat
  th32ThreadID : Nat
  openThread : Bool
  suspendThread : Nat → Bool
  getThreadContext : Nat → Option (BitVec w)

/-- The threads by their numbers, `g_hThreadHandles` with the threads its handles are
    for, and the priority of the current thread. -/
structure State where
  threads : Nat → Thread
  g_hThreadHandles : List (Option Nat)
  g_nThreadHandles : Nat
  priority : Int

def THREAD_PRIORITY_TIME_CRITICAL : Int := 15

/-- The process and the thread that run the library, the snapshot if there is one,
    and whether `malloc` gives the buffer. -/
structure Environment (w : Nat) where
  currentProcessId : Nat
  currentThreadId : Nat
  snapshot : Option (List (Entry w))
  malloc : Bool

def Thread.suspend (t : Thread) (succeeds : Bool) : Thread :=
  if succeeds then { t with suspendCount := t.suspendCount + 1 } else t
def Thread.resume (t : Thread) : Thread := { t with suspendCount := t.suspendCount - 1 }
def Thread.open (t : Thread) : Thread := { t with handles := t.handles + 1 }
def Thread.close (t : Thread) : Thread := { t with handles := t.handles - 1 }

/-- The instruction pointer is in the code. -/
def collides (pbCode : BitVec w) (cbBytes : Nat) (pIp : BitVec w) : Bool :=
  pbCode ≤ pIp ∧ pIp < pbCode + BitVec.ofNat w cbBytes

/-- The loop of `SuspendOneThread`, with `left` tries left after `nTries`. -/
def moveAway (te : Entry w) (pbCode : BitVec w) (cbBytes : Nat) : Nat → Nat → Thread → Thread × Bool
  | left, nTries, t =>
    match te.getThreadContext nTries with
    | none => (t, true)
    | some pIp =>
      if collides pbCode cbBytes pIp then
        match left with
        | 0 => (t.resume.close, false)
        | left + 1 => moveAway te pbCode cbBytes left (nTries + 1) (t.resume.suspend (te.suspendThread (nTries + 1)))
      else (t, true)

/-- `SuspendOneThread`: the thread, and whether the handle returned is a good one. -/
def suspendOneThread (te : Entry w) (pbCode : BitVec w) (cbBytes : Nat) (t : Thread) : Thread × Bool :=
  if te.openThread then
    if te.suspendThread 0 then moveAway te pbCode cbBytes 3 0 (t.open.suspend true) else (t.open.close, false)
  else (t, false)

/-- One of the other threads of this process. -/
def isOther (env : Environment w) (te : Entry w) : Bool :=
  te.th32OwnerProcessID = env.currentProcessId ∧ te.th32ThreadID ≠ env.currentThreadId

/-- The first pass over the snapshot. -/
def nThreadsInProcess (env : Environment w) (snapshot : List (Entry w)) : Nat :=
  snapshot.foldl (fun n te => if isOther env te then n + 1 else n) 0

/-- The second pass: the threads, the buffer, and `nCurrentThread`. -/
def suspendNext (env : Environment w) (pbCode : BitVec w) (cbBytes : Nat)
    (s : (Nat → Thread) × List (Option Nat) × Nat) (te : Entry w) : (Nat → Thread) × List (Option Nat) × Nat :=
  if isOther env te then
    let one := suspendOneThread te pbCode cbBytes (s.1 te.th32ThreadID)
    let threads := Function.update s.1 te.th32ThreadID one.1
    if one.2 then (threads, s.2.1.set s.2.2 (some te.th32ThreadID), s.2.2 + 1)
    else (threads, s.2.1.set s.2.2 none, s.2.2)
  else s

def suspendPass (env : Environment w) (pbCode : BitVec w) (cbBytes : Nat) (snapshot : List (Entry w))
    (s : (Nat → Thread) × List (Option Nat) × Nat) : (Nat → Thread) × List (Option Nat) × Nat :=
  snapshot.foldl (suspendNext env pbCode cbBytes) s

/-- What `ResumeOtherThreads` does to the thread of one handle. -/
def resumeHandle (threads : Nat → Thread) : Option Nat → (Nat → Thread)
  | none => threads
  | some id => Function.update threads id (threads id).resume.close

def resumeOtherThreads (s : State) : State :=
  let nOriginalPriority := s.priority
  { threads := (s.g_hThreadHandles.take s.g_nThreadHandles).foldl resumeHandle s.threads
    g_hThreadHandles := []
    g_nThreadHandles := 0
    priority := nOriginalPriority }

/-- Both passes of `SuspendOtherThreads`, and `bRet` after them. -/
def suspendSnapshot (env : Environment w) (pbCode : BitVec w) (cbBytes : Nat) (s : State) : State × Bool :=
  match env.snapshot with
  | none => (s, false)
  | some snapshot =>
    if nThreadsInProcess env snapshot ≠ 0 then
      if env.malloc then
        let pass := suspendPass env pbCode cbBytes snapshot
          (s.threads, List.replicate (nThreadsInProcess env snapshot) none, 0)
        ({ s with threads := pass.1, g_hThreadHandles := pass.2.1, g_nThreadHandles := pass.2.2 }, true)
      else ({ s with g_hThreadHandles := [] }, false)
    else (s, false)

/-- `SuspendOtherThreads`, and what it returns. -/
def suspendOtherThreads (env : Environment w) (pbCode : BitVec w) (cbBytes : Nat) (s : State) : State × Bool :=
  let nOriginalPriority := s.priority
  match suspendSnapshot env pbCode cbBytes { s with priority := THREAD_PRIORITY_TIME_CRITICAL } with
  | (after, true) => ({ after with priority := nOriginalPriority }, true)
  | (after, false) => (resumeOtherThreads { after with priority := nOriginalPriority }, false)

/-! ### One thread -/

/-- The thread is seen outside the code, or not seen any more, with `left` tries left
    after `nTries`. -/
def seenOutside (te : Entry w) (pbCode : BitVec w) (cbBytes : Nat) : Nat → Nat → Bool
  | left, nTries =>
    match te.getThreadContext nTries with
    | none => true
    | some pIp =>
      if collides pbCode cbBytes pIp then
        match left with
        | 0 => false
        | left + 1 => seenOutside te pbCode cbBytes left (nTries + 1)
      else true

/-- The thread can be opened and suspended, and is seen outside the code. -/
def good (te : Entry w) (pbCode : BitVec w) (cbBytes : Nat) : Bool :=
  te.openThread && te.suspendThread 0 && seenOutside te pbCode cbBytes 3 0

/-- A thread that was suspended once can be suspended again. -/
def Steady (te : Entry w) : Prop := ∀ k, te.suspendThread (k + 1) = true

/-- What the library has done to a thread that was suspended `before` times: it holds
    one handle more and suspends it once, if at all. -/
structure Holds (te : Entry w) (before : Thread) (g : Bool) (t : Thread) : Prop where
  handles : t.handles = before.handles + g.toNat
  atMost : t.suspendCount ≤ before.suspendCount + g.toNat
  exactly : Steady te → t.suspendCount = before.suspendCount + g.toNat

theorem moveAway_spec {te : Entry w} {before : Thread} (pbCode : BitVec w) (cbBytes : Nat) (left nTries : Nat)
    {t : Thread} (holds : Holds te before true t) :
    (moveAway te pbCode cbBytes left nTries t).2 = seenOutside te pbCode cbBytes left nTries ∧
      Holds te before (moveAway te pbCode cbBytes left nTries t).2 (moveAway te pbCode cbBytes left nTries t).1 := by
  induction left generalizing nTries t with
  | zero =>
    rw [moveAway, seenOutside]
    cases te.getThreadContext nTries with
    | none => exact ⟨rfl, holds⟩
    | some pIp =>
      obtain ⟨handles, atMost, exactly⟩ := holds
      simp only [Bool.toNat_true] at handles atMost exactly
      by_cases inside : collides pbCode cbBytes pIp = true
      · simp only [inside, if_true]
        refine ⟨trivial, ?_, ?_, ?_⟩
        · simp only [Thread.close, Thread.resume, handles, Bool.toNat_false]
          omega
        · simp only [Thread.close, Thread.resume, Bool.toNat_false]
          omega
        · intro steady
          simp only [Thread.close, Thread.resume, exactly steady, Bool.toNat_false]
          omega
      · simp only [inside]
        exact ⟨rfl, handles, atMost, exactly⟩
  | succ left ih =>
    rw [moveAway, seenOutside]
    cases te.getThreadContext nTries with
    | none => exact ⟨rfl, holds⟩
    | some pIp =>
      by_cases inside : collides pbCode cbBytes pIp = true
      · simp only [inside, if_true]
        apply ih
        obtain ⟨handles, atMost, exactly⟩ := holds
        simp only [Bool.toNat_true] at handles atMost exactly
        refine ⟨?_, ?_, ?_⟩
        · simp only [Thread.suspend, Thread.resume]
          split <;> simp [handles]
        · simp only [Thread.suspend, Thread.resume, Bool.toNat_true]
          split <;> dsimp only <;> omega
        · intro steady
          simp only [Thread.suspend, Thread.resume, steady nTries, if_true, exactly steady, Bool.toNat_true]
          omega
      · simp only [inside]
        exact ⟨rfl, holds⟩

/-- `SuspendOneThread` returns a good handle for a good thread, and for no other does
    it hold anything. -/
theorem suspendOneThread_spec (te : Entry w) (pbCode : BitVec w) (cbBytes : Nat) (t : Thread) :
    (suspendOneThread te pbCode cbBytes t).2 = good te pbCode cbBytes ∧
      Holds te t (good te pbCode cbBytes) (suspendOneThread te pbCode cbBytes t).1 := by
  rw [suspendOneThread, good]
  cases te.openThread with
  | false => exact ⟨rfl, rfl, Nat.le_refl _, fun _ => rfl⟩
  | true =>
    cases te.suspendThread 0 with
    | false => exact ⟨rfl, by simp [Thread.open, Thread.close], by simp [Thread.open, Thread.close],
        fun _ => by simp [Thread.open, Thread.close]⟩
    | true =>
      have once : Holds te t true (t.open.suspend true) :=
        ⟨rfl, Nat.le_refl _, fun _ => rfl⟩
      obtain ⟨same, holds⟩ := moveAway_spec pbCode cbBytes 3 0 once
      rw [same] at holds
      exact ⟨same, holds⟩

/-! ### All threads -/

/-- The other threads of a snapshot that are held. -/
def held (env : Environment w) (pbCode : BitVec w) (cbBytes : Nat) (snapshot : List (Entry w)) : List Nat :=
  (snapshot.filter (fun te => isOther env te && good te pbCode cbBytes)).map (fun te => te.th32ThreadID)

theorem nThreadsInProcess_eq (env : Environment w) (snapshot : List (Entry w)) :
    nThreadsInProcess env snapshot = snapshot.countP (isOther env) := by
  have general : ∀ n, snapshot.foldl (fun n te => if isOther env te then n + 1 else n) n =
      n + snapshot.countP (isOther env) := by
    induction snapshot with
    | nil => intro n; rfl
    | cons te snapshot ih =>
      intro n
      rw [List.foldl_cons, ih, List.countP_cons]
      split <;> omega
  rw [nThreadsInProcess, general, Nat.zero_add]

/-- Every thread of the list is held once more for each time that it stands there. -/
structure HoldsAll (env : Environment w) (snapshot : List (Entry w)) (before : Nat → Thread) (ids : List Nat)
    (after : Nat → Thread) : Prop where
  handles : ∀ id, (after id).handles = (before id).handles + ids.count id
  atMost : ∀ id, (after id).suspendCount ≤ (before id).suspendCount + ids.count id
  exactly : (∀ te ∈ snapshot, isOther env te → Steady te) →
    ∀ id, (after id).suspendCount = (before id).suspendCount + ids.count id

/-- One thread of the second pass. -/
theorem suspendNext_other {env : Environment w} {te : Entry w} (other : isOther env te = true) (pbCode : BitVec w)
    (cbBytes : Nat) (threads : Nat → Thread) (buffer : List (Option Nat)) (n : Nat) :
    ∃ t, Holds te (threads te.th32ThreadID) (good te pbCode cbBytes) t ∧
      suspendNext env pbCode cbBytes (threads, buffer, n) te =
        (Function.update threads te.th32ThreadID t,
          buffer.set n (if good te pbCode cbBytes then some te.th32ThreadID else none),
          n + (good te pbCode cbBytes).toNat) := by
  obtain ⟨same, holds⟩ := suspendOneThread_spec te pbCode cbBytes (threads te.th32ThreadID)
  refine ⟨_, holds, ?_⟩
  simp only [suspendNext, other, if_true, same]
  cases good te pbCode cbBytes <;> simp

/-- One thread held before the others. -/
theorem holdsAll_cons {env : Environment w} {te : Entry w} {snapshot : List (Entry w)} {threads after : Nat → Thread}
    {t : Thread} {g : Bool} {ids : List Nat} (other : isOther env te = true)
    (holds : Holds te (threads te.th32ThreadID) g t)
    (later : HoldsAll env snapshot (Function.update threads te.th32ThreadID t) ids after) :
    HoldsAll env (te :: snapshot) threads ((if g then [te.th32ThreadID] else []) ++ ids) after := by
  have count : ∀ id, ((if g then [te.th32ThreadID] else []) ++ ids).count id =
      (if id = te.th32ThreadID then g.toNat else 0) + ids.count id := by
    intro id
    rw [List.count_append]
    cases g
    · simp
    · by_cases same : id = te.th32ThreadID
      · simp [same]
      · simp [same, List.count_eq_zero_of_not_mem]
  obtain ⟨handles, atMost, exactly⟩ := later
  refine ⟨?_, ?_, ?_⟩
  · intro id
    rw [handles id, count id, Function.update_apply]
    split
    · rename_i same
      rw [holds.handles, same]
      omega
    · omega
  · intro id
    have bound := atMost id
    rw [count id]
    rw [Function.update_apply] at bound
    have here := holds.atMost
    split at bound
    · rename_i same
      rw [same] at bound ⊢
      rw [if_pos rfl]
      omega
    · rename_i different
      rw [if_neg different]
      omega
  · intro steady id
    rw [exactly (fun te' member => steady te' (List.mem_cons_of_mem _ member)) id, count id, Function.update_apply]
    split
    · rename_i same
      rw [holds.exactly (steady te (List.mem_cons_self ..) other), same]
      omega
    · omega

theorem held_cons (env : Environment w) (pbCode : BitVec w) (cbBytes : Nat) {te : Entry w} (other : isOther env te = true)
    (snapshot : List (Entry w)) : held env pbCode cbBytes (te :: snapshot) =
      (if good te pbCode cbBytes then [te.th32ThreadID] else []) ++ held env pbCode cbBytes snapshot := by
  rw [held, List.filter_cons]
  cases g : good te pbCode cbBytes <;> simp [other, held]

/-- The second pass writes only within the buffer, as long as there is room for the
    threads to come, and records the threads that it holds. -/
theorem pass_recorded (env : Environment w) (pbCode : BitVec w) (cbBytes : Nat) (snapshot : List (Entry w))
    (threads : Nat → Thread) (buffer : List (Option Nat)) (n : Nat)
    (room : n + snapshot.countP (isOther env) ≤ buffer.length) :
    let pass := suspendPass env pbCode cbBytes snapshot (threads, buffer, n)
    pass.2.1.length = buffer.length ∧ pass.2.2 ≤ buffer.length ∧
      pass.2.1.take pass.2.2 = buffer.take n ++ (held env pbCode cbBytes snapshot).map some ∧
      HoldsAll env snapshot threads (held env pbCode cbBytes snapshot) pass.1 := by
  induction snapshot generalizing threads buffer n with
  | nil =>
    have fits : n ≤ buffer.length := by simpa using room
    refine ⟨rfl, fits, by simp [suspendPass, held], ?_⟩
    exact ⟨fun _ => rfl, fun _ => Nat.le_refl _, fun _ _ => rfl⟩
  | cons te snapshot ih =>
    rw [List.countP_cons] at room
    cases other : isOther env te with
    | false =>
      have skip : suspendPass env pbCode cbBytes (te :: snapshot) (threads, buffer, n) =
          suspendPass env pbCode cbBytes snapshot (threads, buffer, n) := by
        simp [suspendPass, suspendNext, other]
      have same : held env pbCode cbBytes (te :: snapshot) = held env pbCode cbBytes snapshot := by
        simp [held, other]
      rw [skip, same]
      obtain ⟨length, bound, recorded, handles, atMost, exactly⟩ := ih threads buffer n (by omega)
      refine ⟨length, bound, recorded, handles, atMost, ?_⟩
      exact fun steady => exactly (fun te' member => steady te' (List.mem_cons_of_mem _ member))
    | true =>
      simp only [other, if_true] at room
      obtain ⟨t, holds, next⟩ := suspendNext_other other pbCode cbBytes threads buffer n
      have pass : suspendPass env pbCode cbBytes (te :: snapshot) (threads, buffer, n) =
          suspendPass env pbCode cbBytes snapshot
            (Function.update threads te.th32ThreadID t,
              buffer.set n (if good te pbCode cbBytes then some te.th32ThreadID else none),
              n + (good te pbCode cbBytes).toNat) := by
        rw [suspendPass, List.foldl_cons, next, suspendPass]
      rw [pass, held_cons env pbCode cbBytes other]
      have few := Bool.toNat_le (good te pbCode cbBytes)
      obtain ⟨length, bound, recorded, all⟩ := ih (Function.update threads te.th32ThreadID t)
        (buffer.set n (if good te pbCode cbBytes then some te.th32ThreadID else none))
        (n + (good te pbCode cbBytes).toNat) (by rw [List.length_set]; omega)
      rw [List.length_set] at length bound
      refine ⟨length, bound, ?_, holdsAll_cons other holds all⟩
      rw [recorded]
      -- a good handle stays where it was written, a bad one is written over
      cases good te pbCode cbBytes with
      | false => simp [List.take_set_of_le]
      | true =>
        have inside : n < buffer.length := by omega
        simp [List.take_add_one, List.take_set_of_le, inside]

/-! ### Suspending and resuming -/

theorem resumeHandles (ids : List Nat) (threads : Nat → Thread) (id : Nat) :
    ((ids.map some).foldl resumeHandle threads) id =
      { suspendCount := (threads id).suspendCount - ids.count id, handles := (threads id).handles - ids.count id } := by
  induction ids generalizing threads with
  | nil => rfl
  | cons first ids ih =>
    rw [List.map_cons, List.foldl_cons, ih, resumeHandle, Function.update_apply]
    by_cases same : id = first
    · rw [if_pos same, same, List.count_cons_self]
      simp only [Thread.resume, Thread.close, Nat.sub_sub, Nat.add_comm 1]
    · rw [if_neg same, List.count_cons_of_ne (Ne.symm same)]

/-- No thread is held. -/
def Idle (s : State) : Prop := s.g_hThreadHandles = [] ∧ s.g_nThreadHandles = 0

theorem resume_idle {s : State} (idle : Idle s) : resumeOtherThreads s = s := by
  obtain ⟨threads, handles, n, priority⟩ := s
  obtain ⟨rfl, rfl⟩ := idle
  rfl

theorem snapshot_cases (env : Environment w) (pbCode : BitVec w) (cbBytes : Nat) {s : State} (idle : Idle s) :
    suspendSnapshot env pbCode cbBytes s = (s, false) ∨
    ∃ snapshot after, env.snapshot = some snapshot ∧ suspendSnapshot env pbCode cbBytes s = (after, true) ∧
      after.g_nThreadHandles ≤ after.g_hThreadHandles.length ∧
      after.g_hThreadHandles.length = nThreadsInProcess env snapshot ∧
      after.g_hThreadHandles.take after.g_nThreadHandles = (held env pbCode cbBytes snapshot).map some ∧
      HoldsAll env snapshot s.threads (held env pbCode cbBytes snapshot) after.threads := by
  rw [suspendSnapshot]
  cases env.snapshot with
  | none => exact .inl rfl
  | some snapshot =>
    dsimp only
    by_cases others : nThreadsInProcess env snapshot ≠ 0
    · rw [if_pos others]
      cases env.malloc with
      | false =>
        obtain ⟨threads, handles, n, priority⟩ := s
        obtain ⟨rfl, rfl⟩ := idle
        exact .inl rfl
      | true =>
        obtain ⟨length, bound, recorded, all⟩ := pass_recorded env pbCode cbBytes snapshot s.threads
          (List.replicate (nThreadsInProcess env snapshot) none) 0 (by rw [nThreadsInProcess_eq]; simp)
        rw [← length] at bound
        rw [List.length_replicate] at length
        exact .inr ⟨snapshot, _, rfl, rfl, bound, length, by simpa using recorded, all⟩
    · rw [if_neg others]
      exact .inl rfl

/-- `SuspendOtherThreads` returns false and does nothing, or holds what it recorded. -/
theorem suspend_cases (env : Environment w) (pbCode : BitVec w) (cbBytes : Nat) {s : State} (idle : Idle s) :
    suspendOtherThreads env pbCode cbBytes s = (s, false) ∨
    ∃ snapshot after, env.snapshot = some snapshot ∧ suspendOtherThreads env pbCode cbBytes s = (after, true) ∧
      after.priority = s.priority ∧ after.g_nThreadHandles ≤ after.g_hThreadHandles.length ∧
      after.g_hThreadHandles.length = nThreadsInProcess env snapshot ∧
      after.g_hThreadHandles.take after.g_nThreadHandles = (held env pbCode cbBytes snapshot).map some ∧
      HoldsAll env snapshot s.threads (held env pbCode cbBytes snapshot) after.threads := by
  have critical : Idle { s with priority := THREAD_PRIORITY_TIME_CRITICAL } := idle
  rw [suspendOtherThreads]
  rcases snapshot_cases env pbCode cbBytes critical with nothing | ⟨snapshot, after, taken, done, bound, length, all⟩
  · rw [nothing]
    exact .inl (congrArg (·, false) (resume_idle (s := s) idle))
  · rw [done]
    exact .inr ⟨snapshot, _, taken, rfl, rfl, bound, length, all⟩

/-- Suspending and resuming the other threads closes every handle and leaves no
    thread suspended more often than it was. Threads that can be suspended again
    after they were resumed are suspended as often as before. -/
theorem resume_suspend (env : Environment w) (pbCode : BitVec w) (cbBytes : Nat) {s : State} (idle : Idle s) :
    let after := resumeOtherThreads (suspendOtherThreads env pbCode cbBytes s).1
    Idle after ∧ after.priority = s.priority ∧
      (∀ id, (after.threads id).handles = (s.threads id).handles ∧
        (after.threads id).suspendCount ≤ (s.threads id).suspendCount) ∧
      ((∀ snapshot, env.snapshot = some snapshot → ∀ te ∈ snapshot, isOther env te → Steady te) → after = s) := by
  dsimp only
  rcases suspend_cases env pbCode cbBytes idle with nothing | ⟨snapshot, after, taken, some', priority, _, _, recorded, all⟩
  · rw [nothing, resume_idle idle]
    exact ⟨idle, rfl, fun id => ⟨rfl, Nat.le_refl _⟩, fun _ => rfl⟩
  · rw [some', resumeOtherThreads, recorded]
    refine ⟨⟨rfl, rfl⟩, priority, ?_, ?_⟩
    · intro id
      have handles := all.handles id
      have atMost := all.atMost id
      dsimp only
      rw [resumeHandles]
      dsimp only
      omega
    · intro steady
      have threads : ((held env pbCode cbBytes snapshot).map some).foldl resumeHandle after.threads = s.threads := by
        funext id
        rw [resumeHandles, all.handles id, all.exactly (steady snapshot taken) id, Nat.add_sub_cancel,
          Nat.add_sub_cancel]
      obtain ⟨before, handles, n, _⟩ := s
      obtain ⟨rfl, rfl⟩ := idle
      simp only [threads, priority]

/-- The thread is seen outside the code at the last of at most `left + 1` looks, or
    not seen at that look, and in the code at those before. -/
def LastLook (te : Entry w) (pbCode : BitVec w) (cbBytes left nTries : Nat) : Prop :=
  ∃ k, k ≤ left ∧
    (∀ j, j < k → ∃ pIp, te.getThreadContext (nTries + j) = some pIp ∧ collides pbCode cbBytes pIp = true) ∧
    ∀ pIp, te.getThreadContext (nTries + k) = some pIp → collides pbCode cbBytes pIp = false

theorem lastLook_first {te : Entry w} {pbCode : BitVec w} {cbBytes nTries : Nat}
    (outside : ∀ pIp, te.getThreadContext nTries = some pIp → collides pbCode cbBytes pIp = false) (left : Nat) :
    LastLook te pbCode cbBytes left nTries :=
  ⟨0, Nat.zero_le _, fun j below => absurd below (Nat.not_lt_zero j), outside⟩

theorem seenOutside_iff (te : Entry w) (pbCode : BitVec w) (cbBytes left nTries : Nat) :
    seenOutside te pbCode cbBytes left nTries = true ↔ LastLook te pbCode cbBytes left nTries := by
  induction left generalizing nTries with
  | zero =>
    rw [seenOutside]
    cases look : te.getThreadContext nTries with
    | none => exact ⟨fun _ => lastLook_first (by simp [look]) _, fun _ => rfl⟩
    | some pIp =>
      cases inside : collides pbCode cbBytes pIp with
      | false => exact ⟨fun _ => lastLook_first (by simp [look, inside]) _, fun _ => by simp [inside]⟩
      | true =>
        refine ⟨fun no => by simp [inside] at no, ?_⟩
        rintro ⟨k, le, -, outside⟩
        cases Nat.le_zero.mp le
        rw [outside pIp look] at inside
        cases inside
  | succ left ih =>
    rw [seenOutside]
    cases look : te.getThreadContext nTries with
    | none => exact ⟨fun _ => lastLook_first (by simp [look]) _, fun _ => rfl⟩
    | some pIp =>
      cases inside : collides pbCode cbBytes pIp with
      | false => exact ⟨fun _ => lastLook_first (by simp [look, inside]) _, fun _ => by simp [inside]⟩
      | true =>
        simp only [inside, if_true]
        rw [ih (nTries + 1)]
        constructor
        · rintro ⟨k, le, before, outside⟩
          refine ⟨k + 1, by omega, ?_, by rwa [Nat.add_comm k 1, ← Nat.add_assoc]⟩
          intro j below
          cases j with
          | zero => exact ⟨pIp, look, inside⟩
          | succ j =>
            rw [Nat.add_comm j 1, ← Nat.add_assoc]
            exact before j (by omega)
        · rintro ⟨k, le, before, outside⟩
          cases k with
          | zero =>
            rw [outside pIp look] at inside
            cases inside
          | succ k =>
            refine ⟨k, by omega, ?_, by rwa [Nat.add_assoc, Nat.add_comm 1 k]⟩
            intro j below
            rw [Nat.add_assoc, Nat.add_comm 1 j]
            exact before (j + 1) (by omega)

/-- When `SuspendOtherThreads` returns true, its buffer has as many places as it
    counted threads, and holds handles of exactly the other threads in the snapshot
    that could be opened and suspended and were last seen outside the code, or not
    seen any more; each of them is suspended, unless it could not be suspended again. -/
theorem recorded_outside (env : Environment w) (pbCode : BitVec w) (cbBytes : Nat) {s after : State} (idle : Idle s)
    (done : suspendOtherThreads env pbCode cbBytes s = (after, true)) :
    ∃ snapshot, env.snapshot = some snapshot ∧
      after.g_nThreadHandles ≤ after.g_hThreadHandles.length ∧
      after.g_hThreadHandles.length = (snapshot.filter (isOther env)).length ∧
      (∀ handle, handle ∈ after.g_hThreadHandles.take after.g_nThreadHandles ↔
        ∃ te ∈ snapshot, handle = some te.th32ThreadID ∧ isOther env te = true ∧ te.openThread = true ∧
          te.suspendThread 0 = true ∧ LastLook te pbCode cbBytes 3 0) ∧
      ((∀ te ∈ snapshot, isOther env te → Steady te) →
        ∀ id, some id ∈ after.g_hThreadHandles.take after.g_nThreadHandles →
          (s.threads id).suspendCount < (after.threads id).suspendCount) := by
  rcases suspend_cases env pbCode cbBytes idle with nothing | ⟨snapshot, after', taken, done', _, bound, length, recorded, all⟩
  · rw [nothing] at done
    cases done
  · rw [done'] at done
    cases done
    refine ⟨snapshot, taken, bound, ?_, ?_, ?_⟩
    · rw [length, nThreadsInProcess_eq, List.countP_eq_length_filter]
    · intro handle
      rw [recorded]
      simp only [held, List.mem_map, List.mem_filter, Bool.and_eq_true, good, seenOutside_iff]
      constructor
      · rintro ⟨id, ⟨te, ⟨member, other, ⟨opened, suspended⟩, outside⟩, rfl⟩, rfl⟩
        exact ⟨te, member, rfl, other, opened, suspended, outside⟩
      · rintro ⟨te, member, rfl, other, opened, suspended, outside⟩
        exact ⟨_, ⟨te, ⟨member, other, ⟨opened, suspended⟩, outside⟩, rfl⟩, rfl⟩
    · intro steady id member
      rw [recorded] at member
      have one : 0 < (held env pbCode cbBytes snapshot).count id :=
        List.count_pos_iff.mpr (by simpa using member)
      rw [all.exactly steady id]
      omega

/-- A process with two threads, the second one in the code at the first look and out
    of it at the second, and a thread of another process. -/
def twoThreads : Environment 64 where
  currentProcessId := 1
  currentThreadId := 10
  snapshot := some
    [{ th32OwnerProcessID := 1, th32ThreadID := 10, openThread := true, suspendThread := fun _ => true,
       getThreadContext := fun _ => none },
     { th32OwnerProcessID := 1, th32ThreadID := 11, openThread := true, suspendThread := fun _ => true,
       getThreadContext := fun nTries => if nTries = 0 then some 0x7ff600001003 else some 0x7ff600002000 },
     { th32OwnerProcessID := 2, th32ThreadID := 12, openThread := true, suspendThread := fun _ => true,
       getThreadContext := fun _ => none }]
  malloc := true

/-- All threads run, and no handle is open. -/
def running : State where
  threads _ := { suspendCount := 0, handles := 0 }
  g_hThreadHandles := []
  g_nThreadHandles := 0
  priority := 0

theorem recorded_outside_two : ∃ after snapshot,
    suspendOtherThreads twoThreads 0x7ff600001000#64 7 running = (after, true) ∧ twoThreads.snapshot = some snapshot ∧
      after.g_nThreadHandles ≤ after.g_hThreadHandles.length ∧
      after.g_hThreadHandles.length = (snapshot.filter (isOther twoThreads)).length ∧
      (∀ handle, handle ∈ after.g_hThreadHandles.take after.g_nThreadHandles ↔
        ∃ te ∈ snapshot, handle = some te.th32ThreadID ∧ isOther twoThreads te = true ∧ te.openThread = true ∧
          te.suspendThread 0 = true ∧ LastLook te 0x7ff600001000#64 7 3 0) ∧
      ((∀ te ∈ snapshot, isOther twoThreads te → Steady te) →
        ∀ id, some id ∈ after.g_hThreadHandles.take after.g_nThreadHandles →
          (running.threads id).suspendCount < (after.threads id).suspendCount) := by
  obtain ⟨snapshot, found⟩ := recorded_outside twoThreads 0x7ff600001000#64 7 (s := running) ⟨rfl, rfl⟩ rfl
  exact ⟨_, snapshot, rfl, found⟩

end WinMiniTools.MhookThreads
