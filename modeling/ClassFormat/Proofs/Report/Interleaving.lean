import ClassFormat.Proofs.Report.Counting

namespace ClassFormat.Report

/-- What a worker has to do. -/
inductive Task where
  /-- Look at the flag, and then go through a source. -/
  | enter (delivery : Delivery)
  /-- Look at the flag, and then turn to a class. -/
  | look (item : String × Bytes)
  | check (item : String × Bytes)
  /-- Count the error that a source ends in, if any. -/
  | finish (failure : Option (List String))
  | raise

structure Worker where
  tasks : List Task
  stats : Stats := {}

def Worker.ofShare (share : List Delivery) : Worker := { tasks := share.map .enter }

/-- What a worker does in one step, given the flag as it sees it, and whether it raises it. Where it
sees a raised flag in front of a source, it gives up what is left, and in front of a class only this
class. -/
def Worker.step (failFast seen : Bool) (w : Worker) : Worker × Bool :=
  match w.tasks with
  | [] => (w, false)
  | .enter delivery :: tasks =>
    if seen then ({ w with tasks := [] }, false)
    else
      ({ w with tasks := delivery.classes.map .look ++ .finish delivery.failure :: tasks }, false)
  | .look item :: tasks => ({ w with tasks := if seen then tasks else .check item :: tasks }, false)
  | .check item :: tasks =>
    let checked := { w.stats with checked := w.stats.checked + 1 }
    let stats := (Progress.count item.1 (RoundTrip.check item.2) checked).1
    -- the problem may be one of an earlier class, and the flag raised already
    ({ tasks := if failFast && !stats.isClean then .raise :: tasks else tasks, stats }, false)
  | .finish none :: tasks => ({ w with tasks }, false)
  | .finish (some _) :: tasks =>
    ({ tasks := if failFast then .raise :: tasks else tasks
       stats := { w.stats with failures := w.stats.failures + 1 } }, false)
  | .raise :: tasks => ({ w with tasks }, true)

structure Crew where
  workers : List Worker
  stopped : Bool := false

/-- Whose turn it is. To a worker that is late, the flag looks as if nobody had raised it: nothing
orders its look behind what the others did. -/
structure Turn where
  worker : Nat
  late : Bool := false

namespace Crew

def act (failFast : Bool) (crew : Crew) (turn : Turn) : Crew :=
  match crew.workers[turn.worker]? with
  | none => crew
  | some w =>
    let next := w.step failFast (crew.stopped && !turn.late)
    { workers := crew.workers.set turn.worker next.1, stopped := crew.stopped || next.2 }

def after (failFast : Bool) (crew : Crew) (schedule : List Turn) : Crew :=
  schedule.foldl (act failFast) crew

def start (jobs : Nat) (deliveries : List Delivery) : Crew where
  workers := (shares jobs deliveries).map .ofShare

/-- All workers have come to their ends. -/
def Done (crew : Crew) : Prop := ∀ w ∈ crew.workers, w.tasks = []

instance (crew : Crew) : Decidable crew.Done :=
  inferInstanceAs (Decidable (∀ w ∈ crew.workers, w.tasks = []))

def stats (crew : Crew) : Stats := (crew.workers.map (·.stats)).foldl Stats.add {}

end Crew

/-- What a task adds to the stats unless it is given up. -/
def Task.worth : Task → Stats
  | .enter delivery => .ofDelivery delivery
  | .look item | .check item => .ofClass item
  | .finish failure => .ofEnd failure
  | .raise => 0

namespace Worker

/-- All that a step can come to. -/
inductive Moves (failFast seen : Bool) : Worker → Worker × Bool → Prop
  | rest (w : Worker) : Moves failFast seen w (w, false)
  | giveUp {tasks left : List Task} (stats : Stats) (hseen : seen = true)
      (hleft : left.Sublist tasks) : Moves failFast seen ⟨tasks, stats⟩ (⟨left, stats⟩, false)
  | takeApart {task : Task} {parts : List Task} (tasks : List Task) (stats : Stats)
      (hworth : (parts.map Task.worth).sum = task.worth) (hraise : .raise ∉ parts) :
      Moves failFast seen ⟨task :: tasks, stats⟩ (⟨parts ++ tasks, stats⟩, false)
  | count (task : Task) (tasks : List Task) (stats : Stats) :
      Moves failFast seen ⟨task :: tasks, stats⟩ (⟨tasks, stats + task.worth⟩, false)
  | countProblem (task : Task) (tasks : List Task) (stats : Stats) (hfast : failFast = true)
      (hproblem : (stats + task.worth).isClean = false) :
      Moves failFast seen ⟨task :: tasks, stats⟩ (⟨.raise :: tasks, stats + task.worth⟩, false)
  | raise (tasks : List Task) (stats : Stats) :
      Moves failFast seen ⟨.raise :: tasks, stats⟩ (⟨tasks, stats⟩, true)

theorem moves_step (failFast seen : Bool) (w : Worker) :
    Moves failFast seen w (w.step failFast seen) := by
  obtain ⟨tasks, stats⟩ := w
  cases tasks with
  | nil => exact .rest _
  | cons task tasks =>
    cases task with
    -- in front of a source all that is left is given up, in front of a class only the class
    | enter delivery =>
      cases seen with
      | true => exact .giveUp stats rfl (List.nil_sublist _)
      | false =>
        have hworth : ((delivery.classes.map Task.look ++
            [Task.finish delivery.failure]).map Task.worth).sum = (Task.enter delivery).worth := by
          simp [Task.worth, Stats.ofDelivery, Function.comp_def]
        simpa [step] using Moves.takeApart tasks stats hworth (by simp)
    | look item =>
      cases seen with
      | true => exact .giveUp stats rfl (List.sublist_cons_self _ _)
      | false =>
        have hworth : (([Task.check item]).map Task.worth).sum = (Task.look item).worth :=
          List.sum_singleton
        exact .takeApart tasks stats hworth (by simp)
    | check item =>
      simp only [step, Progress.count_eq]
      split
      · rename_i hraise
        rw [Bool.and_eq_true, Bool.not_eq_true'] at hraise
        exact .countProblem _ tasks stats hraise.1 hraise.2
      · exact .count _ tasks stats
    | finish failure =>
      cases failure with
      | none => exact .count _ tasks stats
      | some chain =>
        simp only [step]
        split
        · rename_i hfast
          have hproblem : (stats + Stats.ofEnd (some chain)).isClean = false := by
            rw [Stats.isClean_add]
            exact Bool.and_false _
          exact .countProblem _ tasks stats hfast hproblem
        · exact .count _ tasks stats
    | raise => exact .raise tasks stats

/-- What a worker has counted and what it has left to count. -/
def outlook (w : Worker) : Stats := w.stats + (w.tasks.map Task.worth).sum

/-- A worker is about to raise the flag only if it is asked to, and for a problem of its own. -/
def Warranted (failFast : Bool) (w : Worker) : Prop :=
  .raise ∈ w.tasks → failFast = true ∧ w.stats.isClean = false

namespace Moves

variable {failFast seen : Bool} {w : Worker} {next : Worker × Bool}

/-- Only with a raised flag in sight is anything given up, and nothing is ever added. -/
theorem outlook_eq_or (h : Moves failFast seen w next) :
    next.1.outlook = w.outlook ∨ seen = true ∧ next.1.outlook ≤ w.outlook := by
  cases h with
  | rest => exact .inl rfl
  | giveUp stats hseen hleft =>
    refine .inr ⟨hseen, ?_⟩
    apply add_le_add_right
    -- what is left out is worth something or nothing
    exact (hleft.map Task.worth).sum_le_sum fun worth _ => worth.nonneg
  | takeApart tasks stats hworth => simp [outlook, hworth]
  | count | countProblem => simp [outlook, Task.worth, add_assoc]
  | raise => simp [outlook, Task.worth]

theorem outlook_le (h : Moves failFast seen w next) : next.1.outlook ≤ w.outlook :=
  h.outlook_eq_or.elim le_of_eq And.right

theorem outlook_eq (h : Moves failFast seen w next) (hseen : seen = false) :
    next.1.outlook = w.outlook := by
  apply h.outlook_eq_or.resolve_right
  rintro ⟨hseen', -⟩
  cases hseen.symm.trans hseen'

theorem stats_le (h : Moves failFast seen w next) : w.stats ≤ next.1.stats := by
  cases h with
  | count | countProblem => exact le_add_of_nonneg_right (Stats.nonneg _)
  | rest | giveUp | takeApart | raise => exact le_rfl

theorem warranted (h : Moves failFast seen w next) (hw : w.Warranted failFast) :
    next.1.Warranted failFast := by
  cases h with
  | rest => exact hw
  | giveUp stats hseen hleft => exact fun hraise => hw (hleft.subset hraise)
  | takeApart tasks stats hworth hparts =>
    intro hraise
    apply hw
    exact List.mem_cons_of_mem _ ((List.mem_append.1 hraise).resolve_left hparts)
  | count task tasks stats =>
    intro hraise
    have hw := hw (List.mem_cons_of_mem _ hraise)
    exact ⟨hw.1, by simp [Stats.isClean_add, hw.2]⟩
  | countProblem task tasks stats hfast hproblem => exact fun _ => ⟨hfast, hproblem⟩
  | raise tasks stats => exact fun hraise => hw (List.mem_cons_of_mem _ hraise)

theorem raise_mem (h : Moves failFast seen w next) (hraised : next.2 = true) :
    .raise ∈ w.tasks := by
  cases h with
  | raise => exact List.mem_cons_self
  | _ => cases hraised

end Moves

end Worker

namespace Crew

variable {failFast : Bool} {full : Stats} {crew : Crew}

/-- All that a turn can come to: one worker makes a step, and all others stay as they are. -/
theorem act_cases (failFast : Bool) (crew : Crew) (turn : Turn) :
    crew.act failFast turn = crew ∨
      ∃ front w back next, crew.workers = front ++ w :: back ∧
        w.Moves failFast (crew.stopped && !turn.late) next ∧
        crew.act failFast turn = ⟨front ++ next.1 :: back, crew.stopped || next.2⟩ := by
  unfold act
  split
  · exact .inl rfl
  · rename_i w hw
    obtain ⟨hlt, hget⟩ := List.getElem?_eq_some_iff.1 hw
    have hsplit := List.take_append_drop turn.worker crew.workers
    rw [List.drop_eq_getElem_cons hlt, hget] at hsplit
    refine .inr ⟨_, w, _, _, hsplit.symm, Worker.moves_step _ _ w, ?_⟩
    simp only [List.set_eq_take_append_cons_drop, if_pos hlt]

def outlook (crew : Crew) : Stats := (crew.workers.map Worker.outlook).sum

theorem stats_eq_sum (crew : Crew) : crew.stats = (crew.workers.map (·.stats)).sum :=
  List.sum_eq_foldl.symm

theorem outlook_eq_stats (h : crew.Done) : crew.outlook = crew.stats := by
  have hworkers : ∀ w ∈ crew.workers, w.outlook = w.stats := by
    intro w hw
    rw [Worker.outlook, h w hw]
    exact add_zero _
  rw [outlook, stats_eq_sum, List.map_congr_left hworkers]

theorem outlook_act_le (failFast : Bool) (crew : Crew) (turn : Turn) :
    (crew.act failFast turn).outlook ≤ crew.outlook := by
  obtain hsame | ⟨front, w, back, next, hworkers, hmoves, hact⟩ := act_cases failFast crew turn
  · rw [hsame]
  · simp only [outlook, hact, hworkers, List.map_append, List.map_cons, List.sum_append,
      List.sum_cons]
    gcongr
    exact hmoves.outlook_le

theorem outlook_act_eq (failFast : Bool) (h : crew.stopped = false) (turn : Turn) :
    (crew.act failFast turn).outlook = crew.outlook := by
  obtain hsame | ⟨front, w, back, next, hworkers, hmoves, hact⟩ := act_cases failFast crew turn
  · rw [hsame]
  · have hkept : next.1.outlook = w.outlook := hmoves.outlook_eq (by rw [h, Bool.false_and])
    simp only [outlook, hact, hworkers, List.map_append, List.map_cons, hkept]

theorem stats_le_act (failFast : Bool) (crew : Crew) (turn : Turn) :
    crew.stats ≤ (crew.act failFast turn).stats := by
  obtain hsame | ⟨front, w, back, next, hworkers, hmoves, hact⟩ := act_cases failFast crew turn
  · rw [hsame]
  · simp only [stats_eq_sum, hact, hworkers, List.map_append, List.map_cons, List.sum_append,
      List.sum_cons]
    gcongr
    exact hmoves.stats_le

theorem stopped_act {turn : Turn} (h : (crew.act failFast turn).stopped = true) :
    crew.stopped = true ∨ ∃ w ∈ crew.workers, .raise ∈ w.tasks := by
  obtain hsame | ⟨front, w, back, next, hworkers, hmoves, hact⟩ := act_cases failFast crew turn
  · rw [hsame] at h
    exact .inl h
  · rw [hact, Bool.or_eq_true] at h
    refine h.imp_right fun hraised => ⟨w, ?_, hmoves.raise_mem hraised⟩
    rw [hworkers]
    exact List.mem_append_right _ List.mem_cons_self

theorem stopped_of_act_eq_false {turn : Turn} (h : (crew.act failFast turn).stopped = false) :
    crew.stopped = false := by
  obtain hsame | ⟨front, w, back, next, hworkers, hmoves, hact⟩ := act_cases failFast crew turn
  · rwa [hsame] at h
  · rw [hact] at h
    exact (Bool.or_eq_false_iff.1 h).1

theorem warranted_act (h : ∀ w ∈ crew.workers, w.Warranted failFast) (turn : Turn) :
    ∀ w ∈ (crew.act failFast turn).workers, w.Warranted failFast := by
  obtain hsame | ⟨front, w, back, next, hworkers, hmoves, hact⟩ := act_cases failFast crew turn
  · rwa [hsame]
  · simp only [hact, hworkers, List.forall_mem_append, List.forall_mem_cons] at h ⊢
    exact ⟨h.1, hmoves.warranted h.2.1, h.2.2⟩

theorem stats_le_of_mem {w : Worker} (h : w ∈ crew.workers) : w.stats ≤ crew.stats := by
  rw [stats_eq_sum]
  apply List.single_le_sum
  · exact fun stats _ => stats.nonneg
  · exact List.mem_map_of_mem h

/-- What holds however the turns go, if there is `full` to count. -/
structure Sound (failFast : Bool) (full : Stats) (crew : Crew) : Prop where
  bounded : crew.outlook ≤ full
  complete : crew.stopped = false → crew.outlook = full
  raised : crew.stopped = true → failFast = true ∧ crew.stats.isClean = false
  raising : ∀ w ∈ crew.workers, w.Warranted failFast

theorem Sound.act (h : crew.Sound failFast full) (turn : Turn) :
    (crew.act failFast turn).Sound failFast full where
  bounded := (outlook_act_le failFast crew turn).trans h.bounded
  complete := by
    intro hstopped
    have hstopped := stopped_of_act_eq_false hstopped
    rw [outlook_act_eq failFast hstopped, h.complete hstopped]
  raised := by
    intro hstopped
    -- the flag was up before, or a worker that was about to raise it had a problem
    have hproblem : failFast = true ∧ crew.stats.isClean = false := by
      obtain hstopped | ⟨w, hw, hraise⟩ := stopped_act hstopped
      · exact h.raised hstopped
      · obtain ⟨hfast, hproblem⟩ := h.raising w hw hraise
        exact ⟨hfast, Stats.isClean_eq_false_of_le (stats_le_of_mem hw) hproblem⟩
    exact hproblem.imp_right (Stats.isClean_eq_false_of_le (stats_le_act failFast crew turn))
  raising := warranted_act h.raising turn

theorem Sound.after (h : crew.Sound failFast full) (schedule : List Turn) :
    (crew.after failFast schedule).Sound failFast full := by
  induction schedule generalizing crew with
  | nil => exact h
  | cons turn schedule ih => exact ih (h.act turn)

theorem outlook_start (jobs : Nat) (deliveries : List Delivery) :
    (start jobs deliveries).outlook = (deliveries.map Stats.ofDelivery).sum := by
  have hshare (share : List Delivery) :
      (Worker.ofShare share).outlook = (share.map Stats.ofDelivery).sum := by
    rw [Worker.outlook, Worker.ofShare, List.map_map]
    exact zero_add _
  -- the sums of the shares add up to that of all deliveries
  calc (start jobs deliveries).outlook
      = ((shares jobs deliveries).map fun share => (share.map Stats.ofDelivery).sum).sum := by
        rw [outlook, start, List.map_map]
        exact congrArg List.sum (List.map_congr_left fun share _ => hshare share)
    _ = ((shares jobs deliveries).flatten.map Stats.ofDelivery).sum := by
        rw [List.map_flatten, List.sum_flatten, List.map_map]
        rfl
    _ = (deliveries.map Stats.ofDelivery).sum := by rw [flatten_shares]

theorem sound_start (failFast : Bool) (jobs : Nat) (deliveries : List Delivery) :
    (start jobs deliveries).Sound failFast (deliveries.map Stats.ofDelivery).sum where
  bounded := (outlook_start jobs deliveries).le
  complete _ := outlook_start jobs deliveries
  raised hstopped := nomatch hstopped
  raising := by
    intro w hw hraise
    obtain ⟨share, -, rfl⟩ := List.mem_map.1 hw
    obtain ⟨delivery, -, henter⟩ := List.mem_map.1 hraise
    cases henter

namespace Sound

variable (h : crew.Sound failFast full) (hdone : crew.Done)

include h hdone

theorem stats_le : crew.stats ≤ full := by
  rw [← outlook_eq_stats hdone]
  exact h.bounded

theorem stats_eq (hfast : failFast = false) : crew.stats = full := by
  rw [← outlook_eq_stats hdone]
  apply h.complete
  by_contra hstopped
  rw [Bool.not_eq_false] at hstopped
  cases hfast.symm.trans (h.raised hstopped).1

/-- What was given up never hid the only problem. -/
theorem isClean_iff : crew.stats.isClean = true ↔ full.isClean = true := by
  cases hstopped : crew.stopped with
  | false => rw [← outlook_eq_stats hdone, h.complete hstopped]
  | true =>
    have hproblem := (h.raised hstopped).2
    rw [hproblem, Stats.isClean_eq_false_of_le (h.stats_le hdone) hproblem]

end Sound

end Crew

end ClassFormat.Report
