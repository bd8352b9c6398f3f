import PushStreamer.Lib.Creation
import PushStreamer.Lib.Machine

/-!
# Singletons that are created by need

`QLog::instance` and `RecordGameInfo::GetInstance` check twice whether their
object is there, the second time under a mutex. Any number of threads call them,
each as often as it likes; a step of the machine is one access to the shared
memory by one thread, so that a run is a list of threads.

`GetInstance` constructs after its second check. In `QLog::instance` the second
check is `testAndSetOrdered(0, new QLog)`, whose argument is evaluated first.

* `qLog_created_once_iff` — so only one `QLog` is constructed just when no call
  gets as far as `new QLog` with the instance there already.
* `getInstance_created_once` — only one `RecordGameInfo` is constructed in every
  run.
* `singletons_created_once_iff` — both, and that the calls do not get stuck.
-/

namespace PushStreamer

open Creation Function

-- ---------------------------------------------------------------------------
-- The two functions
-- ---------------------------------------------------------------------------

/-- Where a thread is in `QLog::instance`; `secondCheck` has constructed the
argument. -/
inductive QLogPc where
  | idle
  | firstCheck
  | lock
  | create
  | secondCheck (object : ℕ)
  | unlock
  | load
deriving DecidableEq

/-- Where a thread is in `RecordGameInfo::GetInstance`. -/
inductive GetInstancePc where
  | idle
  | firstCheck
  | lock
  | secondCheck
  | create
  | assign (object : ℕ)
  | unlock
  | load
deriving DecidableEq

section

variable {ι : Type*} [DecidableEq ι]

/-- `QLog::instance`: the next step of thread `i`. -/
def qLogInstance (s : Creation.State ι QLogPc) (i : ι) : Option (Creation.State ι QLogPc) :=
  match s.pc i with
  | .idle => some (s.goTo i .firstCheck)
  -- `testAndSetOrdered(0, 0)` is true when the pointer is null
  | .firstCheck => some (s.goTo i (if s.object = none then .lock else .load))
  | .lock => if s.mutex = none then some { s.goTo i .create with mutex := some i } else none
  -- `new QLog`
  | .create =>
    some { s.goTo i (.secondCheck s.constructed) with constructed := s.constructed + 1 }
  | .secondCheck object =>
    some { s.goTo i .unlock with object := if s.object = none then some object else s.object }
  | .unlock => some { s.goTo i .load with mutex := none }
  | .load => some { s.goTo i .idle with returned := s.returned ++ [s.object] }

/-- `RecordGameInfo::GetInstance`: the next step of thread `i`. -/
def getInstance (s : Creation.State ι GetInstancePc) (i : ι) :
    Option (Creation.State ι GetInstancePc) :=
  match s.pc i with
  | .idle => some (s.goTo i .firstCheck)
  | .firstCheck => some (s.goTo i (if s.object = none then .lock else .load))
  | .lock => if s.mutex = none then some { s.goTo i .secondCheck with mutex := some i } else none
  | .secondCheck => some (s.goTo i (if s.object = none then .create else .unlock))
  -- `new RecordGameInfo()`
  | .create => some { s.goTo i (.assign s.constructed) with constructed := s.constructed + 1 }
  | .assign object => some { s.goTo i .unlock with object := some object }
  | .unlock => some { s.goTo i .load with mutex := none }
  | .load => some { s.goTo i .idle with returned := s.returned ++ [s.object] }

end

-- ---------------------------------------------------------------------------
-- QLog
-- ---------------------------------------------------------------------------

/-- The points between taking the mutex and giving it back. -/
def QLogPc.Inside : QLogPc → Prop
  | .create | .secondCheck _ | .unlock => True
  | _ => False

def QLogPc.Done : QLogPc → Prop
  | .unlock | .load => True
  | _ => False

def qLogStages : Stages QLogPc where
  idle := .idle
  Inside := QLogPc.Inside
  pending := .secondCheck
  Done := QLogPc.Done
  idle_ne := nofun
  idle_out := id
  idle_not_done := id
  pending_inj _ _ := QLogPc.secondCheck.inj
  pending_inside _ := trivial
  pending_not_done _ := id

section

variable {ι : Type*} [DecidableEq ι] {s s' : Creation.State ι QLogPc} {i : ι}

theorem qLog_inv_step (h : Inv qLogStages s) (hStep : qLogInstance s i = some s') :
    Inv qLogStages s' := by
  unfold qLogInstance at hStep
  cases hPc : s.pc i with
  | idle =>
    rw [hPc] at hStep
    obtain rfl := Option.some.inj hStep
    -- a call begins outside the lock
    exact h.goTo hPc (h.held.move hPc Iff.rfl) (fun _ => id) nofun nofun
  | firstCheck =>
    rw [hPc] at hStep
    obtain rfl := Option.some.inj hStep
    by_cases hNone : s.object = none
    · -- the object is looked at without the lock
      rw [if_pos hNone]
      exact h.goTo hPc (h.held.move hPc Iff.rfl) (fun _ => id) nofun nofun
    · rw [if_neg hNone]
      exact h.goTo hPc (h.held.move hPc Iff.rfl) (fun h' => absurd h' hNone) nofun nofun
  | lock =>
    rw [hPc] at hStep
    obtain ⟨hFree, rfl⟩ := Machine.of_guard hStep
    have hHeld : Mutex.Held QLogPc.Inside s.pc none := hFree ▸ h.held
    -- the lock is free, and so nobody else is inside
    exact h.goTo hPc (hHeld.lock trivial) (fun _ => id) nofun nofun
  | create =>
    rw [hPc] at hStep
    obtain rfl := Option.some.inj hStep
    -- the object is made before it is known whether there is one
    exact h.create hPc trivial nofun
  | secondCheck object =>
    rw [hPc] at hStep
    obtain rfl := Option.some.inj hStep
    exact h.publish hPc trivial
  | unlock =>
    rw [hPc] at hStep
    obtain rfl := Option.some.inj hStep
    have hSome : s.object ≠ none := h.some_of_done hPc trivial
    -- whoever leaves the lock has seen an object
    exact h.goTo hPc (h.held.unlock hPc trivial id) (fun hNone => absurd hNone hSome) nofun nofun
  | load =>
    rw [hPc] at hStep
    obtain rfl := Option.some.inj hStep
    exact h.return (h.held.move hPc Iff.rfl) (h.some_of_done hPc trivial)

/-- Only `new QLog` constructs an object. -/
theorem qLogInstance_constructed (hStep : qLogInstance s i = some s') :
    s'.constructed = if s.pc i = .create then s.constructed + 1 else s.constructed := by
  unfold qLogInstance at hStep
  cases hPc : s.pc i with
  | lock =>
    rw [hPc] at hStep
    obtain ⟨-, rfl⟩ := Machine.of_guard hStep
    rfl
  | _ =>
    rw [hPc] at hStep
    obtain rfl := Option.some.inj hStep
    rfl

/-- A step constructs a second object just when it is `new QLog` with the
instance there already. -/
theorem qLog_createdOnce_iff (h : Inv qLogStages s) (hOnce : CreatedOnce s)
    (hStep : qLogInstance s i = some s') :
    CreatedOnce s' ↔ (s.pc i = .create → s.object = none) := by
  rw [(qLog_inv_step h hStep).createdOnce_iff, qLogInstance_constructed hStep]
  have hOne : s.constructed ≤ 1 := hOnce.1
  by_cases hPc : s.pc i = .create
  · rw [if_pos hPc]
    constructor
    · intro hLe _
      by_contra hSome
      have hPos := (h.published hSome).2.1
      omega
    · intro hNone
      have hZero : s.constructed = 0 :=
        h.constructed_eq_zero hPc trivial nofun (hNone hPc)
      omega
  · rw [if_neg hPc]
    exact iff_of_true hOne fun hCreate => absurd hCreate hPc

/-- **`QLog::instance` constructs one object** along a run just when no call of
the run gets as far as `new QLog` with the instance there already. -/
theorem qLog_created_once_iff (es : List ι) :
    Machine.Keeps qLogInstance CreatedOnce (start .idle) es ↔
      Machine.MeetsTaken qLogInstance (fun s i => s.pc i = .create → s.object = none)
        (start .idle) es := by
  have hStart : Inv qLogStages (start .idle : Creation.State ι QLogPc) := inv_start
  exact Machine.keeps_iff_meets (fun _ _ _ h hStep => qLog_inv_step h hStep)
    (fun _ _ _ h hOnce hStep => qLog_createdOnce_iff h hOnce hStep) hStart createdOnce_start

theorem qLog_inv_run {es : List ι} (hRun : Machine.run qLogInstance (start .idle) es = some s) :
    Inv qLogStages s := by
  have hStart : Inv qLogStages (start .idle : Creation.State ι QLogPc) := inv_start
  exact Machine.inv_run (fun _ _ _ h hStep => qLog_inv_step h hStep) hStart hRun

/-- Every call returns the first `QLog` that is constructed. -/
theorem qLog_returned {es : List ι} (hRun : Machine.run qLogInstance (start .idle) es = some s) :
    ∀ r ∈ s.returned, r = some 0 := by
  have hInv := qLog_inv_run hRun
  by_cases hNone : s.object = none
  · rw [hInv.notReturned hNone]
    nofun
  · exact (hInv.published hNone).2.2

end

-- ---------------------------------------------------------------------------
-- RecordGameInfo
-- ---------------------------------------------------------------------------

/-- The points between taking the mutex and giving it back. -/
def GetInstancePc.Inside : GetInstancePc → Prop
  | .secondCheck | .create | .assign _ | .unlock => True
  | _ => False

def GetInstancePc.Done : GetInstancePc → Prop
  | .unlock | .load => True
  | _ => False

def getInstanceStages : Stages GetInstancePc where
  idle := .idle
  Inside := GetInstancePc.Inside
  pending := .assign
  Done := GetInstancePc.Done
  idle_ne := nofun
  idle_out := id
  idle_not_done := id
  pending_inj _ _ := GetInstancePc.assign.inj
  pending_inside _ := trivial
  pending_not_done _ := id

/-- The points that a thread reaches only while there is no instance. -/
def GetInstancePc.Constructs : GetInstancePc → Prop
  | .create | .assign _ => True
  | _ => False

/-- The second check is right: while a thread constructs there is no instance,
and otherwise one object has been constructed when there is one. -/
structure GetInstanceInv {ι : Type*} (s : Creation.State ι GetInstancePc) : Prop where
  inv : Inv getInstanceStages s
  alone : ∀ i, (s.pc i).Constructs → s.object = none
  one : s.object ≠ none → s.constructed = 1

section

variable {ι : Type*} [DecidableEq ι] {s s' : Creation.State ι GetInstancePc} {i : ι}

/-- A step that neither constructs nor assigns. -/
theorem GetInstanceInv.keep (h : GetInstanceInv s) (hInv : Inv getInstanceStages s')
    {p : GetInstancePc} (hPc : s'.pc = update s.pc i p) (hObject : s'.object = s.object)
    (hConstructed : s'.constructed = s.constructed) (hp : p.Constructs → s.object = none) :
    GetInstanceInv s' where
  inv := hInv
  alone := by
    rw [hPc, hObject]
    exact (forall_update_iff s.pc fun _ q => q.Constructs → s.object = none).mpr
      ⟨hp, fun j _ => h.alone j⟩
  one := by
    rw [hObject, hConstructed]
    exact h.one

theorem GetInstanceInv.goTo (h : GetInstanceInv s) {p q : GetInstancePc} (hPc : s.pc i = q)
    {m : Option ι} (hHeld : Mutex.Held GetInstancePc.Inside (update s.pc i p) m)
    (hDone : s.object = none → ¬ p.Done) (hNew : ∀ o, p ≠ .assign o) (hOld : ∀ o, q ≠ .assign o)
    (hp : p.Constructs → s.object = none) : GetInstanceInv { s.goTo i p with mutex := m } :=
  h.keep (h.inv.goTo hPc hHeld hDone hNew hOld) rfl rfl rfl hp

theorem GetInstanceInv.create (h : GetInstanceInv s) (hPc : s.pc i = .create) :
    GetInstanceInv
      { s.goTo i (.assign s.constructed) with constructed := s.constructed + 1 } := by
  have hNone : s.object = none := h.alone i (by rw [hPc]; trivial)
  exact ⟨h.inv.create hPc trivial nofun, fun _ _ => hNone, fun hSome => absurd hNone hSome⟩

/-- The assignment finds the pointer null, as `publish` asks for. -/
theorem GetInstanceInv.assign (h : GetInstanceInv s) {object : ℕ}
    (hPc : s.pc i = .assign object) :
    GetInstanceInv { s.goTo i .unlock with object := some object } := by
  have hNone : s.object = none := h.alone i (by rw [hPc]; trivial)
  have hOne : s.constructed = 1 := (h.inv.first hNone i object hPc).2
  have hInv := h.inv.publish (p := GetInstancePc.unlock) hPc trivial
  rw [if_pos hNone] at hInv
  refine ⟨hInv, ?_, fun _ => hOne⟩
  refine (forall_update_iff s.pc fun _ q => q.Constructs → some object = none).mpr
    ⟨False.elim, fun j hj hConstructs => ?_⟩
  -- the others are not inside
  have hInside : (s.pc j).Inside := by
    cases hPj : s.pc j with
    | create => trivial
    | assign o => trivial
    | _ =>
      rw [hPj] at hConstructs
      exact hConstructs.elim
  exact absurd (h.inv.held.unique hInside (by rw [hPc]; trivial)) hj

theorem getInstanceInv_step (h : GetInstanceInv s) (hStep : getInstance s i = some s') :
    GetInstanceInv s' := by
  unfold getInstance at hStep
  cases hPc : s.pc i with
  | idle =>
    rw [hPc] at hStep
    obtain rfl := Option.some.inj hStep
    exact h.goTo hPc (h.inv.held.move hPc Iff.rfl) (fun _ => id) nofun nofun nofun
  | firstCheck =>
    rw [hPc] at hStep
    obtain rfl := Option.some.inj hStep
    by_cases hNone : s.object = none
    · rw [if_pos hNone]
      exact h.goTo hPc (h.inv.held.move hPc Iff.rfl) (fun _ => id) nofun nofun nofun
    · rw [if_neg hNone]
      exact h.goTo hPc (h.inv.held.move hPc Iff.rfl) (fun h' => absurd h' hNone) nofun nofun nofun
  | lock =>
    rw [hPc] at hStep
    obtain ⟨hFree, rfl⟩ := Machine.of_guard hStep
    have hHeld : Mutex.Held GetInstancePc.Inside s.pc none := hFree ▸ h.inv.held
    exact h.goTo hPc (hHeld.lock trivial) (fun _ => id) nofun nofun nofun
  | secondCheck =>
    rw [hPc] at hStep
    obtain rfl := Option.some.inj hStep
    by_cases hNone : s.object = none
    · rw [if_pos hNone]
      -- only a thread that sees none under the lock goes on to make one
      exact h.goTo hPc (h.inv.held.move hPc Iff.rfl) (fun _ => id) nofun nofun fun _ => hNone
    · rw [if_neg hNone]
      exact h.goTo hPc (h.inv.held.move hPc Iff.rfl) (fun h' => absurd h' hNone) nofun nofun nofun
  | create =>
    rw [hPc] at hStep
    obtain rfl := Option.some.inj hStep
    exact h.create hPc
  | assign object =>
    rw [hPc] at hStep
    obtain rfl := Option.some.inj hStep
    exact h.assign hPc
  | unlock =>
    rw [hPc] at hStep
    obtain rfl := Option.some.inj hStep
    have hSome : s.object ≠ none := h.inv.some_of_done hPc trivial
    exact h.goTo hPc (h.inv.held.unlock hPc trivial id)
      (fun hNone => absurd hNone hSome) nofun nofun nofun
  | load =>
    rw [hPc] at hStep
    obtain rfl := Option.some.inj hStep
    have hSome : s.object ≠ none := h.inv.some_of_done hPc trivial
    exact h.keep (h.inv.return (h.inv.held.move hPc Iff.rfl) hSome) rfl rfl rfl nofun

theorem getInstanceInv_run {es : List ι}
    (hRun : Machine.run getInstance (start .idle) es = some s) : GetInstanceInv s := by
  have hStart : GetInstanceInv (start .idle : Creation.State ι GetInstancePc) :=
    ⟨inv_start, nofun, fun hSome => absurd rfl hSome⟩
  exact Machine.inv_run (fun _ _ _ h hStep => getInstanceInv_step h hStep) hStart hRun

/-- **`GetInstance` constructs one object**, in every run. -/
theorem getInstance_created_once {es : List ι}
    (hRun : Machine.run getInstance (start .idle) es = some s) : CreatedOnce s := by
  have hInv := getInstanceInv_run hRun
  rw [hInv.inv.createdOnce_iff]
  by_cases hNone : s.object = none
  · rcases hInv.inv.unused hNone with hZero | ⟨j, hPc⟩
    · omega
    · exact Nat.le_of_eq (hInv.inv.first hNone j 0 hPc).2
  · exact Nat.le_of_eq (hInv.one hNone)

end

-- ---------------------------------------------------------------------------
-- Both
-- ---------------------------------------------------------------------------

section

variable {ι : Type*} [DecidableEq ι]

/-- A call of `QLog::instance` waits for the mutex only. -/
theorem qLogInstance_isSome {s : Creation.State ι QLogPc} {i : ι}
    (h : s.pc i = .lock → s.mutex = none) : (qLogInstance s i).isSome = true := by
  unfold qLogInstance
  cases hPc : s.pc i with
  | lock => rw [h hPc]; rfl
  | _ => rfl

theorem getInstance_isSome {s : Creation.State ι GetInstancePc} {i : ι}
    (h : s.pc i = .lock → s.mutex = none) : (getInstance s i).isSome = true := by
  unfold getInstance
  cases hPc : s.pc i with
  | lock => rw [h hPc]; rfl
  | _ => rfl

/-- **One object each?** `GetInstance` constructs one object in every run, and
every call returns it. The calls of `QLog::instance` return one object too, but
it is the only one that is constructed just when no call of the run gets as far
as `new QLog` with the instance there already. Neither of them gets stuck. -/
theorem singletons_created_once_iff (es : List ι) :
    (Machine.Keeps qLogInstance CreatedOnce (start .idle) es ↔
      Machine.MeetsTaken qLogInstance (fun s i => s.pc i = .create → s.object = none)
        (start .idle) es) ∧
    (∀ s, Machine.run qLogInstance (start .idle) es = some s →
      (∀ r ∈ s.returned, r = some 0) ∧ GoesOn qLogStages qLogInstance s) ∧
    ∀ s, Machine.run getInstance (start .idle) es = some s →
      CreatedOnce s ∧ GoesOn getInstanceStages getInstance s := by
  refine ⟨qLog_created_once_iff es, fun s hRun => ⟨qLog_returned hRun, ?_⟩,
    fun s hRun => ⟨getInstance_created_once hRun, ?_⟩⟩
  · have hOut : ¬ qLogStages.Inside QLogPc.lock := id
    exact (qLog_inv_run hRun).goesOn hOut fun _ => qLogInstance_isSome
  · have hOut : ¬ getInstanceStages.Inside GetInstancePc.lock := id
    exact (getInstanceInv_run hRun).inv.goesOn hOut fun _ => getInstance_isSome

end

/-- Two threads pass the first check before either gets the mutex. -/
def bothPassFirstCheck : List Bool :=
  [false, false, true, true, false, false, false, false, true, true]

/-- The second one constructs a `QLog` that nobody gets. -/
theorem qLog_created_twice : ∃ s, Machine.run qLogInstance (start .idle) bothPassFirstCheck =
    some s ∧ s.constructed = 2 ∧ ¬ CreatedOnce s := by
  have hRun : (Machine.run qLogInstance (start .idle) bothPassFirstCheck).map
      Creation.State.constructed = some 2 := by decide
  obtain ⟨s, hSome, hTwo⟩ := Option.map_eq_some_iff.mp hRun
  exact ⟨s, hSome, hTwo, fun hOnce => by
    have hLe := hOnce.1
    omega⟩

end PushStreamer
