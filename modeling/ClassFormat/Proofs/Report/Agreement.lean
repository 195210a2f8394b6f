import ClassFormat.Proofs.Report.Interleaving
import Mathlib.Logic.Relation

namespace ClassFormat

/-- Once the flag is up, a worker leaves its sources alone. -/
theorem Progress.checkSources_of_stopped (failFast : Bool) {p : Progress} (h : p.stopped = true)
    (deliveries : List Delivery) : p.checkSources failFast deliveries = p := by
  induction deliveries with
  | nil => rfl
  | cons delivery deliveries ih =>
    rw [checkSources, List.foldl_cons, checkSource, if_pos h]
    exact ih

namespace Report

/-- A bound on the turns for a task and for all it leads to. -/
def Task.turns : Task → Nat
  | .enter delivery => 3 * delivery.classes.length + 3
  | .look _ => 3
  | .check _ | .finish _ => 2
  | .raise => 1

namespace Worker

def turns (w : Worker) : Nat := (w.tasks.map Task.turns).sum

theorem turns_step (failFast seen : Bool) (w : Worker) :
    (w.step failFast seen).1.turns ≤ w.turns - 1 := by
  obtain ⟨tasks, stats⟩ := w
  cases tasks with
  | nil => exact Nat.le_refl 0
  | cons task tasks =>
    cases task with
    | enter delivery =>
      cases seen with
      -- one turn for the source, two for its end and three for each class
      | true => exact Nat.zero_le _
      | false =>
        simp only [step, turns, Task.turns, List.map_append, List.map_cons, List.map_map,
          List.sum_append, List.sum_cons, Function.comp_def, List.map_const',
          List.sum_replicate_nat, Bool.false_eq_true, if_false]
        omega
    | look item => cases seen <;> simp [step, turns, Task.turns]
    | check item =>
      simp only [step, turns]
      split <;> simp [Task.turns]
    | finish failure =>
      cases failure with
      | none => simp [step, turns, Task.turns]
      | some chain => cases failFast <;> simp [step, turns, Task.turns]
    | raise => simp [step, turns, Task.turns]

theorem tasks_eq_nil {w : Worker} (h : w.turns = 0) : w.tasks = [] := by
  cases htasks : w.tasks with
  | nil => rfl
  | cons task tasks =>
    rw [turns, htasks, List.map_cons, List.sum_cons] at h
    cases task <;> simp [Task.turns] at h

end Worker

namespace Crew

variable {failFast : Bool} {crew : Crew}

theorem turns_act {turn : Turn} {i : Nat} {w' : Worker}
    (h : (crew.act failFast turn).workers[i]? = some w') :
    ∃ w, crew.workers[i]? = some w ∧ w'.turns ≤ w.turns - [turn].countP (·.worker == i) := by
  unfold act at h
  split at h
  · rename_i hnone
    have hother : turn.worker ≠ i := by
      rintro rfl
      cases hnone.symm.trans h
    exact ⟨w', h, by simp [hother]⟩
  · rename_i w hw
    by_cases hturn : turn.worker = i
    · subst hturn
      rw [List.getElem?_set_self (List.getElem?_eq_some_iff.1 hw).1, Option.some_inj] at h
      rw [← h]
      exact ⟨w, hw, by simpa using Worker.turns_step _ _ w⟩
    · rw [List.getElem?_set_ne hturn] at h
      exact ⟨w', h, by simp [hturn]⟩

theorem turns_after {schedule : List Turn} {i : Nat} {w' : Worker}
    (h : (crew.after failFast schedule).workers[i]? = some w') :
    ∃ w, crew.workers[i]? = some w ∧ w'.turns ≤ w.turns - schedule.countP (·.worker == i) := by
  induction schedule generalizing crew with
  | nil => exact ⟨w', h, le_rfl⟩
  | cons turn schedule ih =>
    obtain ⟨w₁, hw₁, hle₁⟩ := ih h
    obtain ⟨w, hw, hle⟩ := turns_act hw₁
    refine ⟨w, hw, ?_⟩
    rw [← List.singleton_append, List.countP_append]
    omega

/-- Each worker has at least so many turns. -/
def Serves (turns : Nat) (schedule : List Turn) (crew : Crew) : Prop :=
  ∀ i < crew.workers.length, turns ≤ schedule.countP (·.worker == i)

theorem done_after {schedule : List Turn}
    (h : crew.Serves (crew.workers.map Worker.turns).sum schedule) :
    (crew.after failFast schedule).Done := by
  intro w' hw'
  obtain ⟨i, hi⟩ := List.mem_iff_getElem?.1 hw'
  obtain ⟨w, hw, hle⟩ := turns_after hi
  obtain ⟨hlt, hget⟩ := List.getElem?_eq_some_iff.1 hw
  -- the turns of all workers are enough for each of them
  have hmem : w.turns ∈ crew.workers.map Worker.turns :=
    List.mem_map_of_mem (hget ▸ List.getElem_mem hlt)
  have henough := (List.le_sum_of_mem hmem).trans (h i hlt)
  apply Worker.tasks_eq_nil
  omega

end Crew

namespace Worker

/-- What a worker and the flag come to in one step while no other worker does anything. -/
def alone (failFast : Bool) (state : Worker × Bool) : Worker × Bool :=
  ((state.1.step failFast state.2).1, state.2 || (state.1.step failFast state.2).2)

def Alone (failFast : Bool) : Worker × Bool → Worker × Bool → Prop :=
  Relation.ReflTransGen fun a b => alone failFast a = b

theorem Alone.step {failFast : Bool} {a b : Worker × Bool}
    (h : Alone failFast (alone failFast a) b) : Alone failFast a b :=
  Relation.ReflTransGen.head rfl h

def standing (tasks : List Task) (p : Progress) : Worker × Bool := (⟨tasks, p.stats⟩, p.stopped)

variable (failFast : Bool) (tasks : List Task) (p : Progress)

theorem alone_raise (raise stopped : Bool) (stats : Stats) :
    Alone failFast (⟨if raise then .raise :: tasks else tasks, stats⟩, stopped)
      (⟨tasks, stats⟩, stopped || raise) := by
  cases raise with
  | false =>
    rw [Bool.or_false]
    exact .refl
  | true => exact .single rfl

theorem alone_checkClass (item : String × Bytes) :
    Alone failFast (standing (.look item :: tasks) p)
      (standing tasks (p.checkClass failFast item)) := by
  obtain ⟨stats, stopped, log⟩ := p
  cases stopped with
  | true => exact .single rfl
  | false =>
    -- a look at the flag, and the check itself
    apply Alone.step
    apply Alone.step
    exact alone_raise failFast tasks _ false _

theorem alone_classes (items : List (String × Bytes)) :
    Alone failFast (standing (items.map .look ++ tasks) p)
      (standing tasks (items.foldl (Progress.checkClass failFast) p)) := by
  induction items generalizing p with
  | nil => exact .refl
  | cons item items ih => exact (alone_checkClass failFast _ p item).trans (ih _)

theorem alone_endSource (failure : Option (List String)) :
    Alone failFast (standing (.finish failure :: tasks) p)
      (standing tasks (p.endSource failFast failure)) := by
  apply Alone.step
  rw [alone, standing]
  cases failure with
  | none =>
    rw [Worker.step, Bool.or_false]
    exact .refl
  | some chain =>
    rw [Worker.step, Bool.or_false]
    exact alone_raise failFast tasks failFast p.stopped _

theorem alone_checkSource (h : p.stopped = false) (delivery : Delivery) :
    Alone failFast (standing (.enter delivery :: tasks) p)
      (standing tasks (p.checkSource failFast delivery)) := by
  have hclasses := alone_classes failFast (.finish delivery.failure :: tasks) p delivery.classes
  obtain ⟨stats, stopped, log⟩ := p
  cases h
  apply Alone.step
  exact hclasses.trans (alone_endSource failFast tasks _ delivery.failure)

theorem alone_checkSources (share : List Delivery) :
    Alone failFast (standing (share.map .enter) p)
      (standing [] (p.checkSources failFast share)) := by
  induction share generalizing p with
  | nil => exact .refl
  | cons delivery share ih =>
    cases hstopped : p.stopped with
    | false => exact (alone_checkSource failFast _ p hstopped delivery).trans (ih _)
    | true =>
      -- one step gives up all sources that are left
      rw [Progress.checkSources_of_stopped failFast hstopped, standing, standing, hstopped]
      exact .single rfl

end Worker

/-- What one worker counts is added to what the workers before it counted. -/
def checkShare (failFast : Bool) (total : Progress) (share : List Delivery) : Progress :=
  let p := Progress.checkSources failFast { stopped := total.stopped, log := total.log } share
  { p with stats := total.stats.add p.stats }

theorem run_eq_foldl (failFast : Bool) (jobs : Nat) (deliveries : List Delivery) :
    run failFast jobs deliveries = (shares jobs deliveries).foldl (checkShare failFast) {} := rfl

namespace Crew

theorem after_append (failFast : Bool) (crew : Crew) (first second : List Turn) :
    crew.after failFast (first ++ second) = (crew.after failFast first).after failFast second :=
  List.foldl_append

/-- The turns of one worker alone are a schedule, wherever in the crew it stands. -/
theorem exists_schedule_of_alone {failFast : Bool} {a b : Worker × Bool}
    (h : Worker.Alone failFast a b) (front back : List Worker) : ∃ schedule,
      (Crew.mk (front ++ a.1 :: back) a.2).after failFast schedule =
        ⟨front ++ b.1 :: back, b.2⟩ := by
  induction h with
  | refl => exact ⟨[], rfl⟩
  | tail _ hstep ih =>
    obtain ⟨schedule, hschedule⟩ := ih
    refine ⟨schedule ++ [⟨front.length, false⟩], ?_⟩
    rw [after_append, hschedule, ← hstep]
    simp [after, act, Worker.alone]

theorem stats_concat (front : List Worker) (w : Worker) (stopped stopped' : Bool) :
    (Crew.mk (front ++ [w]) stopped).stats = (Crew.mk front stopped').stats.add w.stats := by
  simp only [stats, List.map_append, List.foldl_append, List.map_cons, List.map_nil,
    List.foldl_cons, List.foldl_nil]

/-- The workers in `front` have come to their ends with `total`, and the others have yet to
begin. -/
theorem exists_schedule_foldl (failFast : Bool) (shares : List (List Delivery))
    (front : List Worker) (total : Progress) (hdone : ∀ w ∈ front, w.tasks = [])
    (hstats : (Crew.mk front total.stopped).stats = total.stats) : ∃ schedule,
      ((Crew.mk (front ++ shares.map .ofShare) total.stopped).after failFast schedule).Done ∧
        ((Crew.mk (front ++ shares.map .ofShare) total.stopped).after failFast schedule).stats =
          (shares.foldl (checkShare failFast) total).stats := by
  -- on the shares that are left: the worker of the first of them goes to the front when it is done
  induction shares generalizing front total with
  | nil =>
    rw [List.map_nil, List.append_nil]
    exact ⟨[], hdone, hstats⟩
  | cons share shares ih =>
    let begun : Progress := { stopped := total.stopped, log := total.log }
    let ended := begun.checkSources failFast share
    have hfirst : ∃ first, (Crew.mk (front ++ .ofShare share :: shares.map .ofShare)
        total.stopped).after failFast first =
          ⟨front ++ ⟨[], ended.stats⟩ :: shares.map .ofShare, ended.stopped⟩ :=
      exists_schedule_of_alone (Worker.alone_checkSources failFast begun share) front _
    have hdone' : ∀ w ∈ front ++ [⟨[], ended.stats⟩], w.tasks = [] :=
      List.forall_mem_append.2 ⟨hdone, List.forall_mem_singleton.2 rfl⟩
    have hstats' : (Crew.mk (front ++ [⟨[], ended.stats⟩]) ended.stopped).stats =
        total.stats.add ended.stats := by
      rw [stats_concat _ _ _ total.stopped, hstats]
    obtain ⟨first, hfirst⟩ := hfirst
    obtain ⟨second, hsecond⟩ := ih _ (checkShare failFast total share) hdone' hstats'
    rw [List.append_assoc] at hsecond
    refine ⟨first ++ second, ?_⟩
    rw [after_append, List.map_cons, hfirst]
    exact hsecond

end Crew

/-- Some schedule lets the workers come to their ends with these stats. -/
def MayReport (failFast : Bool) (jobs : Nat) (deliveries : List Delivery) (stats : Stats) : Prop :=
  ∃ schedule, ((Crew.start jobs deliveries).after failFast schedule).Done ∧
    ((Crew.start jobs deliveries).after failFast schedule).stats = stats

/-- To let one worker after the other do its work is one of the schedules. -/
theorem mayReport_run (failFast : Bool) (jobs : Nat) (deliveries : List Delivery) :
    MayReport failFast jobs deliveries (run failFast jobs deliveries).stats := by
  have hnone : ∀ w ∈ ([] : List Worker), w.tasks = [] := fun _ h => nomatch h
  rw [run_eq_foldl]
  exact Crew.exists_schedule_foldl failFast (shares jobs deliveries) [] {} hnone rfl

theorem mayReport_false {jobs : Nat} {deliveries : List Delivery} {stats : Stats}
    (h : MayReport false jobs deliveries stats) :
    stats = (deliveries.map Stats.ofDelivery).sum := by
  obtain ⟨schedule, hdone, hstats⟩ := h
  rw [← hstats]
  exact ((Crew.sound_start false jobs deliveries).after schedule).stats_eq hdone rfl

theorem stats_run_false (jobs : Nat) (deliveries : List Delivery) :
    (run false jobs deliveries).stats = (deliveries.map Stats.ofDelivery).sum :=
  mayReport_false (mayReport_run false jobs deliveries)

/-- The number of jobs changes nothing in the report: every class counts once, and so does every
class and every source that fails. -/
theorem stats_independent_of_jobs (jobs : Nat) (deliveries : List Delivery) :
    (run false jobs deliveries).stats = (run false 1 deliveries).stats ∧
      (run false 1 deliveries).stats =
        { checked := (deliveries.flatMap (·.classes)).length
          mismatches := 0
          failures := (deliveries.flatMap (·.classes)).countP (fun item =>
            !(RoundTrip.check item.2).isOk) + deliveries.countP (·.failure.isSome) } ∧
      (∃ turns, ∀ schedule, (Crew.start jobs deliveries).Serves turns schedule →
        ((Crew.start jobs deliveries).after false schedule).Done) ∧
      ∀ stats, MayReport false jobs deliveries stats ↔ stats = (run false 1 deliveries).stats := by
  have hjobs : (run false jobs deliveries).stats = (run false 1 deliveries).stats := by
    rw [stats_run_false, stats_run_false]
  refine ⟨hjobs, ?_, ⟨_, fun schedule => Crew.done_after⟩, ?_⟩
  · rw [stats_run_false, Stats.sum_ofDelivery]
  · intro stats
    constructor
    · intro h
      rw [stats_run_false]
      exact mayReport_false h
    · rintro rfl
      rw [← hjobs]
      exact mayReport_run false jobs deliveries

/-- With fail-fast less may be counted, but a problem is reported if and only if there is one. -/
theorem failFast_keeps_verdict (jobs : Nat) (deliveries : List Delivery) :
    MayReport true jobs deliveries (run true jobs deliveries).stats ∧
      (∃ turns, ∀ schedule, (Crew.start jobs deliveries).Serves turns schedule →
        ((Crew.start jobs deliveries).after true schedule).Done) ∧
      ∀ stats, MayReport true jobs deliveries stats →
        (stats.isClean = true ↔ (run false 1 deliveries).stats.isClean = true) ∧
          stats.checked ≤ (run false 1 deliveries).stats.checked ∧
          stats.mismatches ≤ (run false 1 deliveries).stats.mismatches ∧
          stats.failures ≤ (run false 1 deliveries).stats.failures := by
  refine ⟨mayReport_run true jobs deliveries, ⟨_, fun schedule => Crew.done_after⟩, ?_⟩
  rintro stats ⟨schedule, hdone, rfl⟩
  have hsound := (Crew.sound_start true jobs deliveries).after schedule
  rw [stats_run_false, ← Stats.le_iff]
  exact ⟨hsound.isClean_iff hdone, hsound.stats_le hdone⟩

/-- A class that cannot be read, and a source that cannot be. -/
def broken : List Delivery :=
  [⟨[("a.class", [])], none⟩, ⟨[], some ["failed to open archive \"b.jar\""]⟩]

/-- Both workers look at the flag before either raises it, or the first one raises it in time. -/
theorem failFast_keeps_verdict_broken :
    MayReport true 2 broken ⟨1, 0, 2⟩ ∧ MayReport true 2 broken ⟨1, 0, 1⟩ ∧
      (run false 1 broken).stats.isClean = false ∧ 2 ≤ (run false 1 broken).stats.failures := by
  have hboth : MayReport true 2 broken ⟨1, 0, 2⟩ :=
    ⟨[⟨0, false⟩, ⟨1, false⟩, ⟨0, false⟩, ⟨1, false⟩, ⟨0, false⟩, ⟨1, false⟩, ⟨0, false⟩,
      ⟨0, false⟩], by decide, by decide⟩
  have hfirst : MayReport true 2 broken ⟨1, 0, 1⟩ :=
    ⟨[⟨0, false⟩, ⟨0, false⟩, ⟨0, false⟩, ⟨0, false⟩, ⟨0, false⟩, ⟨1, false⟩], by decide, by decide⟩
  obtain ⟨hclean, -, -, hfailures⟩ := (failFast_keeps_verdict 2 broken).2.2 _ hboth
  refine ⟨hboth, hfirst, ?_, hfailures⟩
  rw [← Bool.not_eq_true, ← hclean]
  decide

end Report

end ClassFormat
