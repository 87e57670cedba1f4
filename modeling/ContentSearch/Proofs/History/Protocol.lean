import ContentSearch.Proofs.History.Tasks

/-!
# What no interleaving breaks

* `World.Step.exclusive`: at most one task has the update lock, and one has it exactly if it is taken;
* `World.Follows.step`: a world goes through the states of a recorder, in which every change is made at once; the change is
  made when the world writes;
* `World.Follows.account`: no entry is lost, doubled or overtaken;
* `World.Run.undisturbed`: nobody writes between another task's reading and its writing;
* `World.regular_of_run`: so all this holds after any run of any number of callers;
* `World.Regular.running_le_one`, `World.Regular.running_eq_one`: then there are never two writers, and there is one if the
  flag is up and no caller is about to schedule it.
-/

namespace ContentSearch

/-- The job of a task that has read the stored list and has not written yet, with the list. -/
def Task.loaded? : Task → Option (Job × List HistoryEntry)
  | working j (.loaded l) => some (j, l)
  | _ => none

theorem Task.hasLock_of_loaded? {t : Task} (h : t.loaded?.isSome) : t.hasLock = true := by
  cases t with
  | working j stage => cases stage <;> first | rfl | simp [loaded?] at h
  | _ => simp [loaded?] at h

/-- What an action is for a recorder: a change is made when it writes. -/
def Action.onRecorder {σ : Type} [Store σ] (r : Recorder σ) : Action → Recorder σ
  | .submit e => r.submit e
  | .write (.call c) => r.onStore fun h s => c.run h s
  | .write (.entry _) => r.advance 0
  | .take _ => r.advance 0
  | .stop => r.advance 0
  | _ => r

/-- The recorder after what some events are for it. -/
def Recorder.replay {σ : Type} [Store σ] (r : Recorder σ) (events : List Event) : Recorder σ :=
  events.foldl (fun r x => x.action.onRecorder r) r

/-- The entries that were submitted in some events, in order. -/
def submitted (events : List Event) : List HistoryEntry := events.filterMap (·.action.submitted?)

/-- The entries that writers recorded in some events, in order. -/
def applied (events : List Event) : List HistoryEntry := events.filterMap (·.action.recorded?)

namespace World

variable {σ : Type}

/-! ## the lock -/

/-- One task has the update lock if it is taken, and else none. -/
def Exclusive (w : World σ) : Prop := w.tasks.countP Task.hasLock = w.shared.locked.toNat

/-- If a task has the lock then it is taken, and nobody else has it. -/
theorem Exclusive.of_hasLock {s : Shared σ} {before after : List Task} {t : Task}
    (hw : Exclusive ⟨s, before ++ t :: after⟩) (ht : t.hasLock = true) :
    s.locked = true ∧ ∀ u ∈ before ++ after, u.hasLock = false := by
  have hcount : before.countP Task.hasLock + (after.countP Task.hasLock + 1) = s.locked.toNat := by
    have hw := hw
    rwa [Exclusive, List.countP_append, List.countP_cons_of_pos ht] at hw
  have hle := Bool.toNat_le s.locked
  have hothers : (before ++ after).countP Task.hasLock = 0 := by
    rw [List.countP_append]
    omega
  constructor
  · cases hlocked : s.locked with
    | true => rfl
    | false => simp [hlocked] at hcount
  · intro u hu
    exact Bool.not_eq_true _ ▸ List.countP_eq_zero.1 hothers u hu

theorem exclusive_start (s : σ) (callers : Nat) : (start s callers).Exclusive := by
  have hnone : (List.replicate callers Task.idle).countP Task.hasLock = 0 := by
    rw [List.countP_eq_zero]
    intro t ht
    rw [List.eq_of_mem_replicate ht]
    simp [Task.hasLock]
  exact hnone

variable [Store σ] {h : History} {w w' : World σ} {x : Event}

theorem Step.exclusive (hw : w.Exclusive) (hstep : Step h w x w') : w'.Exclusive := by
  obtain ⟨before, after, hstep⟩ := hstep
  obtain ⟨hbalance, hnew⟩ := hstep.lock_balance fun ht => (hw.of_hasLock ht).1
  have hone (u : Task) : (if u.hasLock = true then 1 else 0) = u.hasLock.toNat := by cases u.hasLock <;> rfl
  simp only [Exclusive, List.countP_append, List.countP_cons, hone] at hw ⊢
  omega

theorem Run.exclusive {es : List Event} (hrun : Run h w es w') (hw : w.Exclusive) : w'.Exclusive := by
  induction hrun with
  | nil => exact hw
  | cons hstep _ ih => exact ih (hstep.exclusive hw)

/-! ## the recorder that a world follows -/

def loads (w : World σ) : List (Job × List HistoryEntry) := w.tasks.filterMap Task.loaded?

/-- What a store is to the store of the recorder: the same if no change is between reading and writing, and otherwise what
reading has made of it. -/
def Agrees (h : History) (s store : σ) : List (Job × List HistoryEntry) → Prop
  | [] => s = store
  | [(j, l)] => j.change.read h store = (l, s)
  | _ => False

/-- The recorder is where the world is, but for changes that have only been read. -/
structure Follows (h : History) (w : World σ) (r : Recorder σ) : Prop where
  history : r.history = h
  sound : r.Sound
  queue : r.queue = w.shared.queue
  writing : r.writing = w.shared.writing
  writers : r.writers = w.writers
  store : Agrees h w.shared.store r.store w.loads

theorem follows_start (h : History) (s : σ) (callers : Nat) : Follows h (start s callers) (.ofHistory h s) := by
  have hwriters : (List.replicate callers Task.idle).filterMap Task.writer? = [] := by
    simp [List.filterMap_replicate, Task.writer?]
  have hloads : (start s callers).loads = [] := by
    simp [loads, start, List.filterMap_replicate, Task.loaded?]
  refine ⟨rfl, Recorder.sound_ofHistory h s, rfl, rfl, hwriters.symm, ?_⟩
  rw [hloads]
  rfl

theorem filterMap_mid {β : Type} (f : Task → Option β) (before after : List Task) (t : Task) :
    (before ++ t :: after).filterMap f = before.filterMap f ++ (f t).toList ++ after.filterMap f := by
  cases hf : f t <;> simp [hf]

section Step

variable {s s' : Shared σ} {before after new : List Task} {t t' : Task} {r r' : Recorder σ}

/-- What the recorder has to be after a step, by the task that has taken the step and those that have not. -/
theorem Follows.next (hhistory : r'.history = h) (hsound : r'.Sound) (hqueue : r'.queue = s'.queue)
    (hwriting : r'.writing = s'.writing)
    (hwriters : r'.writers = before.filterMap Task.writer? ++ t'.writer?.toList ++ after.filterMap Task.writer? ++
      new.filterMap Task.writer?)
    (hstore : Agrees h s'.store r'.store
      (before.filterMap Task.loaded? ++ t'.loaded?.toList ++ after.filterMap Task.loaded?))
    (hnew : new.filterMap Task.loaded? = []) : Follows h ⟨s', before ++ t' :: after ++ new⟩ r' := by
  refine ⟨hhistory, hsound, hqueue, hwriting, ?_, ?_⟩
  · rw [World.writers, List.filterMap_append, filterMap_mid]
    exact hwriters
  · rw [loads, List.filterMap_append, filterMap_mid, hnew, List.append_nil]
    exact hstore

theorem Follows.agrees (hf : Follows h ⟨s, before ++ t :: after⟩ r) :
    Agrees h s.store r.store (before.filterMap Task.loaded? ++ t.loaded?.toList ++ after.filterMap Task.loaded?) := by
  have hstore := hf.store
  rw [loads, filterMap_mid] at hstore
  exact hstore

theorem Follows.writers_eq (hf : Follows h ⟨s, before ++ t :: after⟩ r) (hwriter : t'.writer? = t.writer?) :
    r.writers = before.filterMap Task.writer? ++ t'.writer?.toList ++ after.filterMap Task.writer? ++ [] := by
  rw [hf.writers, World.writers, filterMap_mid, hwriter, List.append_nil]

theorem Follows.of_writer (hf : Follows h ⟨s, before ++ t :: after⟩ r) {v : Option HistoryEntry}
    (ht : t.writer? = some v) :
    before.filterMap Task.writer? = [] ∧ after.filterMap Task.writer? = [] ∧ r.writers = [v] := by
  have hwriters : r.writers = before.filterMap Task.writer? ++ [v] ++ after.filterMap Task.writer? := by
    rw [hf.writers, World.writers, filterMap_mid, ht, Option.toList_some]
  have hlength : r.writers.length ≤ 1 := hf.sound.writers ▸ Bool.toNat_le r.writing
  rw [hwriters, List.length_append, List.length_append, List.length_singleton] at hlength
  have hbefore : before.filterMap Task.writer? = [] := List.length_eq_zero_iff.1 (by omega)
  have hafter : after.filterMap Task.writer? = [] := List.length_eq_zero_iff.1 (by omega)
  rw [hbefore, hafter] at hwriters
  exact ⟨hbefore, hafter, hwriters⟩

theorem Follows.of_not_writing (hf : Follows h ⟨s, before ++ t :: after⟩ r) (hwriting : s.writing = false) :
    before.filterMap Task.writer? = [] ∧ after.filterMap Task.writer? = [] := by
  have hnil := hf.sound.writers_eq_nil (hf.writing.trans hwriting)
  rw [hf.writers, World.writers, filterMap_mid, List.append_eq_nil_iff, List.append_eq_nil_iff] at hnil
  exact ⟨hnil.1.1, hnil.2⟩

omit [Store σ] in
theorem Exclusive.loads_eq_nil (hw : w.Exclusive) (hfree : w.shared.locked = false) : w.loads = [] := by
  rw [Exclusive, hfree, Bool.toNat_false, List.countP_eq_zero] at hw
  rw [loads, List.filterMap_eq_nil_iff]
  intro t ht
  by_contra hne
  exact hw t ht (Task.hasLock_of_loaded? (Option.isSome_iff_ne_none.2 hne))

omit [Store σ] in
theorem Exclusive.loads_of_hasLock (hw : Exclusive ⟨s, before ++ t :: after⟩) (ht : t.hasLock = true) :
    before.filterMap Task.loaded? = [] ∧ after.filterMap Task.loaded? = [] := by
  have hnone (u : Task) (hu : u ∈ before ++ after) : u.loaded? = none := by
    by_contra hne
    have hlock := Task.hasLock_of_loaded? (Option.isSome_iff_ne_none.2 hne)
    rw [(hw.of_hasLock ht).2 u hu] at hlock
    exact Bool.noConfusion hlock
  rw [List.filterMap_eq_nil_iff, List.filterMap_eq_nil_iff]
  exact ⟨fun u hu => hnone u (List.mem_append_left _ hu), fun u hu => hnone u (List.mem_append_right _ hu)⟩

/-! ## the cases of a step -/

theorem Follows.stay (hf : Follows h ⟨s, before ++ t :: after⟩ r) (hstore : s'.store = s.store)
    (hqueue : s'.queue = s.queue) (hwriting : s'.writing = s.writing) (hwriter : t'.writer? = t.writer?)
    (hloaded : t'.loaded? = t.loaded?) : Follows h ⟨s', before ++ t' :: after ++ []⟩ r := by
  refine .next hf.history hf.sound (hf.queue.trans hqueue.symm) (hf.writing.trans hwriting.symm)
    (hf.writers_eq hwriter) ?_ rfl
  rw [hloaded, hstore]
  exact hf.agrees

theorem Follows.submit (hf : Follows h ⟨s, before ++ .idle :: after⟩ r) (e : HistoryEntry) :
    Follows h ⟨{ s with queue := s.queue ++ [e], writing := true },
      before ++ (if s.writing then .idle else .starting) :: after ++ []⟩ (r.submit e) := by
  have hsound := hf.sound.submit e
  rw [hf.sound.submit_eq, hf.writing, hf.queue] at hsound ⊢
  cases hwriting : s.writing with
  | true =>
    rw [hwriting] at hsound
    exact .next hf.history hsound rfl rfl (hf.writers_eq rfl) hf.agrees rfl
  | false =>
    rw [hwriting] at hsound
    obtain ⟨hbefore, hafter⟩ := hf.of_not_writing hwriting
    refine .next hf.history hsound rfl rfl ?_ hf.agrees rfl
    rw [hbefore, hafter]
    rfl

theorem Follows.start (hf : Follows h ⟨s, before ++ .starting :: after⟩ r) :
    Follows h ⟨s, before ++ .idle :: after ++ [.looking]⟩ r := by
  obtain ⟨hbefore, hafter, hr⟩ := hf.of_writer (v := none) rfl
  refine .next hf.history hf.sound hf.queue hf.writing ?_ hf.agrees rfl
  rw [hbefore, hafter]
  exact hr

theorem Follows.take (hf : Follows h ⟨s, before ++ .looking :: after⟩ r) {e : HistoryEntry} {queue : List HistoryEntry}
    (hqueue : s.queue = e :: queue) :
    Follows h ⟨{ s with queue }, before ++ .working (.entry e) .waiting :: after ++ []⟩ (r.advance 0) := by
  obtain ⟨hbefore, hafter, hr⟩ := hf.of_writer (v := none) rfl
  have hsound := hf.sound.advance 0
  rw [Recorder.advance_of_cons hr (hf.queue.trans hqueue)] at hsound ⊢
  refine .next hf.history hsound rfl hf.writing ?_ hf.agrees rfl
  rw [hbefore, hafter]
  rfl

theorem Follows.stop (hf : Follows h ⟨s, before ++ .looking :: after⟩ r) (hqueue : s.queue = []) :
    Follows h ⟨{ s with writing := false }, before ++ .stopped :: after ++ []⟩ (r.advance 0) := by
  obtain ⟨hbefore, hafter, hr⟩ := hf.of_writer (v := none) rfl
  have hsound := hf.sound.advance 0
  rw [Recorder.advance_of_nil hr (hf.queue.trans hqueue)] at hsound ⊢
  refine .next hf.history hsound hf.queue rfl ?_ hf.agrees rfl
  rw [hbefore, hafter]
  rfl

theorem Follows.read {j : Job} (hf : Follows h ⟨s, before ++ .working j .locked :: after⟩ r)
    (hw : Exclusive ⟨s, before ++ .working j .locked :: after⟩) :
    Follows h ⟨{ s with store := (j.change.read h s.store).2 },
      before ++ .working j (.loaded (j.change.read h s.store).1) :: after ++ []⟩ r := by
  obtain ⟨hbefore, hafter⟩ := hw.loads_of_hasLock rfl
  have hagrees := hf.agrees
  rw [hbefore, hafter] at hagrees
  have hstore : s.store = r.store := hagrees
  refine .next hf.history hf.sound hf.queue hf.writing (hf.writers_eq (by cases j <;> rfl)) ?_ rfl
  rw [hbefore, hafter, hstore]
  rfl

/-- What is written is what the change makes of the recorder's store, since nobody has written after the reading. -/
theorem Follows.write {j : Job} {l : List HistoryEntry} (hf : Follows h ⟨s, before ++ .working j (.loaded l) :: after⟩ r)
    (hw : Exclusive ⟨s, before ++ .working j (.loaded l) :: after⟩) :
    Follows h ⟨{ s with store := j.change.write h s.store l }, before ++ .working j .written :: after ++ []⟩
      ((Action.write j).onRecorder r) := by
  obtain ⟨hbefore, hafter⟩ := hw.loads_of_hasLock rfl
  have hread := hf.agrees
  rw [hbefore, hafter] at hread
  have hread : j.change.read h r.store = (l, s.store) := hread
  have hrun : j.change.write h s.store l = j.change.run h r.store := by rw [Change.run_eq_write, hread]
  rw [hrun]
  cases j with
  | call c =>
    show Follows h _ (r.onStore fun h s => c.run h s)
    refine .next hf.history (hf.sound.onStore _) hf.queue hf.writing (hf.writers_eq rfl) ?_ rfl
    rw [hbefore, hafter]
    show c.run h r.store = c.run r.history r.store
    rw [hf.history]
  | entry e =>
    obtain ⟨hnobody, hnobody', hr⟩ := hf.of_writer (v := some e) rfl
    have hsound := hf.sound.advance 0
    show Follows h _ (r.advance 0)
    rw [Recorder.advance_of_held hr] at hsound ⊢
    refine .next hf.history hsound hf.queue hf.writing ?_ ?_ rfl
    · rw [hnobody, hnobody']
      rfl
    · rw [hbefore, hafter]
      show h.record r.store e = r.history.record r.store e
      rw [hf.history]

end Step

/-- **Whatever a task does, the recorder that does the same at once keeps up.** -/
theorem Follows.step {r : Recorder σ} (hf : Follows h w r) (hw : w.Exclusive) (hstep : Step h w x w') :
    Follows h w' (x.action.onRecorder r) := by
  obtain ⟨before, after, hstep⟩ := hstep
  cases hstep with
  | submit e => exact hf.submit e
  | start => exact hf.start
  | take e queue hqueue => exact hf.take hqueue
  | stop hqueue => exact hf.stop hqueue
  | call c => exact hf.stay rfl rfl rfl rfl rfl
  | lock j hfree => exact hf.stay rfl rfl rfl (by cases j <;> rfl) rfl
  | read j => exact hf.read hw
  | write j l => exact hf.write hw
  | unlockCaller c => exact hf.stay rfl rfl rfl rfl rfl
  | unlockWriter e => exact hf.stay rfl rfl rfl rfl rfl

theorem Run.follows {es : List Event} {r : Recorder σ} (hrun : Run h w es w') (hf : Follows h w r)
    (hw : w.Exclusive) : Follows h w' (r.replay es) := by
  induction hrun generalizing r with
  | nil => exact hf
  | cons hstep _ ih => exact ih (hf.step hw hstep) (hstep.exclusive hw)

/-! ## the way of the entries -/

theorem filterMap_pending? (l : List Task) : l.filterMap Task.pending? = (l.filterMap Task.writer?).filterMap id := by
  rw [List.filterMap_filterMap]
  rfl

theorem Follows.pending_eq {r : Recorder σ} (hf : Follows h w r) : w.pending ++ w.shared.queue = r.pending := by
  rw [Recorder.pending, hf.writers, hf.queue, pending, filterMap_pending?]
  rfl

/-- An entry that leaves the queue is taken, and a taken entry is recorded, before the next one is. -/
theorem Follows.account {r : Recorder σ} (hf : Follows h w r) (hstep : Step h w x w') :
    w.pending ++ w.shared.queue ++ x.action.submitted?.toList =
      x.action.recorded?.toList ++ w'.pending ++ w'.shared.queue := by
  obtain @⟨s, s', t, t', a, new, before, after, hstep⟩ := hstep
  obtain ⟨hbalance, hnew⟩ := hstep.entry_balance
  have hpending : pending ⟨s', before ++ t' :: after ++ new⟩ =
      before.filterMap Task.pending? ++ t'.pending?.toList ++ after.filterMap Task.pending? := by
    rw [pending, List.filterMap_append, filterMap_mid, hnew, List.append_nil]
  rw [hpending, pending, filterMap_mid]
  -- the entries of other tasks stand around the task's own, so its balance is that of the world only if there are none
  cases ht : t.writer? with
  | some v =>
    obtain ⟨hbefore, hafter, -⟩ := hf.of_writer ht
    rw [filterMap_pending? before, filterMap_pending? after, hbefore, hafter]
    simpa using hbalance
  | none =>
    obtain ⟨hrecorded, ht'⟩ := hstep.of_not_writer ht
    have ht : t.pending? = none := by rw [Task.pending?, ht, Option.join_none]
    rw [hrecorded, ht, ht'] at hbalance ⊢
    simpa using hbalance

theorem Run.account {es : List Event} {r : Recorder σ} (hrun : Run h w es w') (hf : Follows h w r)
    (hw : w.Exclusive) :
    w.pending ++ w.shared.queue ++ submitted es = applied es ++ w'.pending ++ w'.shared.queue := by
  induction hrun generalizing r with
  | nil => simp [submitted, applied]
  | @cons w₁ w₂ w₃ x es hstep _ ih =>
    have hhead := hf.account hstep
    have hrest := ih (hf.step hw hstep) (hstep.exclusive hw)
    have hsubmitted : submitted (x :: es) = x.action.submitted?.toList ++ submitted es := by
      cases hx : x.action.submitted? <;> simp [submitted, hx]
    have happlied : applied (x :: es) = x.action.recorded?.toList ++ applied es := by
      cases hx : x.action.recorded? <;> simp [applied, hx]
    calc w₁.pending ++ w₁.shared.queue ++ submitted (x :: es)
        = (w₁.pending ++ w₁.shared.queue ++ x.action.submitted?.toList) ++ submitted es := by
          rw [hsubmitted, List.append_assoc _ x.action.submitted?.toList]
      _ = x.action.recorded?.toList ++ (w₂.pending ++ w₂.shared.queue ++ submitted es) := by
          rw [hhead]
          simp only [List.append_assoc]
      _ = applied (x :: es) ++ w₃.pending ++ w₃.shared.queue := by
          rw [hrest, happlied]
          simp only [List.append_assoc]

/-! ## reading and writing -/

omit [Store σ] in
theorem getElem?_others {before after new : List Task} {t t' u : Task} {n : Nat}
    (hu : (before ++ t :: after)[n]? = some u) (hn : before.length ≠ n) :
    u ∈ before ++ after ∧ (before ++ t' :: after ++ new)[n]? = some u := by
  rw [List.append_assoc]
  rcases Nat.lt_or_gt_of_ne hn with hlt | hgt
  · obtain ⟨k, rfl⟩ := Nat.exists_eq_add_of_lt hlt
    rw [Nat.add_assoc, List.getElem?_append_right (Nat.le_add_right _ _), Nat.add_sub_cancel_left,
      List.getElem?_cons_succ] at hu
    rw [Nat.add_assoc, List.getElem?_append_right (Nat.le_add_right _ _), Nat.add_sub_cancel_left, List.cons_append,
      List.getElem?_cons_succ]
    have hk : k < after.length := (List.getElem?_eq_some_iff.1 hu).1
    rw [List.getElem?_append_left hk]
    exact ⟨List.mem_append_right _ (List.mem_of_getElem? hu), hu⟩
  · rw [List.getElem?_append_left hgt] at hu ⊢
    exact ⟨List.mem_append_left _ (List.mem_of_getElem? hu), hu⟩

theorem Step.of_hasLock {n : Nat} {u : Task} (hstep : Step h w x w') (hw : w.Exclusive) (hn : w.tasks[n]? = some u)
    (hu : u.hasLock = true) (hx : x.task ≠ n) : x.action.isWrite = false ∧ w'.tasks[n]? = some u := by
  obtain ⟨before, after, hstep⟩ := hstep
  obtain ⟨hmem, hn'⟩ := getElem?_others hn hx
  refine ⟨?_, hn'⟩
  cases hstep with
  | write j l =>
    have hfree := (hw.of_hasLock rfl).2 u hmem
    rw [hfree] at hu
    exact Bool.noConfusion hu
  | _ => rfl

theorem Run.of_hasLock {n : Nat} {u : Task} {es : List Event} (hrun : Run h w es w') (hw : w.Exclusive)
    (hn : w.tasks[n]? = some u) (hu : u.hasLock = true) (hes : ∀ x ∈ es, x.task ≠ n) :
    ∀ x ∈ es, x.action.isWrite = false := by
  induction hrun with
  | nil => exact fun x hx => absurd hx List.not_mem_nil
  | cons hstep _ ih =>
    obtain ⟨hx, hn'⟩ := hstep.of_hasLock hw hn hu (hes _ List.mem_cons_self)
    rw [List.forall_mem_cons] at hes ⊢
    exact ⟨hx, ih (hstep.exclusive hw) hn' hes.2⟩

theorem Step.hasLock_of_read {n : Nat} (hstep : Step h w ⟨n, .read⟩ w') :
    ∃ u, w'.tasks[n]? = some u ∧ u.hasLock = true := by
  obtain @⟨s, s', t, t', a, new, before, after, hstep⟩ := hstep
  cases hstep with
  | read j =>
    refine ⟨.working j (.loaded (j.change.read h s.store).1), ?_, rfl⟩
    rw [List.append_nil, List.getElem?_append_right (Nat.le_refl _), Nat.sub_self]
    rfl

theorem Run.of_append {es es' : List Event} (hrun : Run h w (es ++ es') w') :
    ∃ v, Run h w es v ∧ Run h v es' w' := by
  induction es generalizing w with
  | nil => exact ⟨w, .nil w, hrun⟩
  | cons x es ih =>
    cases hrun with
    | cons hstep hrun =>
      obtain ⟨v, hes, hes'⟩ := ih hrun
      exact ⟨v, .cons hstep hes, hes'⟩

/-- **From its reading on, a task is the only one to write until it takes its next step.** -/
theorem Run.undisturbed {n : Nat} {earlier meanwhile later : List Event}
    (hrun : Run h w (earlier ++ ⟨n, .read⟩ :: meanwhile ++ later) w') (hw : w.Exclusive)
    (hothers : ∀ x ∈ meanwhile, x.task ≠ n) : ∀ x ∈ meanwhile, x.action.isWrite = false := by
  rw [List.append_assoc] at hrun
  obtain ⟨v, hearlier, hrun⟩ := hrun.of_append
  cases hrun with
  | cons hread hrun =>
    obtain ⟨_, hmeanwhile, -⟩ := hrun.of_append
    have hv := hearlier.exclusive hw
    obtain ⟨u, hn, hu⟩ := hread.hasLock_of_read
    exact hmeanwhile.of_hasLock (hread.exclusive hv) hn hu hothers

/-! ## any run -/

omit [Store σ] in
theorem length_writers (w : World σ) :
    w.writers.length = w.tasks.countP Task.isStarting + w.tasks.countP Task.isRunning := by
  rw [writers, List.length_filterMap_eq_countP]
  induction w.tasks with
  | nil => rfl
  | cons t l ih =>
    rw [List.countP_cons, List.countP_cons, List.countP_cons, ih]
    cases t with
    | working j stage =>
      cases j with
      | call c => simp [Task.writer?, Task.isStarting, Task.isRunning]
      | entry e => cases stage <;> simp [Task.writer?, Task.isStarting, Task.isRunning] <;> omega
    | _ => simp [Task.writer?, Task.isStarting, Task.isRunning] <;> omega

/-- What is so after some events of a world that has started with nothing to record. -/
structure Regular (h : History) (s : σ) (events : List Event) (w : World σ) : Prop where
  /-- There is one writer if the flag is up, and else none.  While a caller that has raised the flag has not scheduled the
  writer yet, the caller stands for it. -/
  one_writer : w.tasks.countP Task.isStarting + w.tasks.countP Task.isRunning = w.shared.writing.toNat
  /-- The flag is up as long as an entry is queued or is taken and not recorded. -/
  flag_up : w.shared.queue ≠ [] ∨ w.pending ≠ [] → w.shared.writing = true
  /-- Every entry is recorded once, queued, or taken, in the order of the submissions. -/
  in_order : submitted events = applied events ++ w.pending ++ w.shared.queue
  /-- From its reading until its next step, which is to write, nobody but the task itself writes. -/
  undisturbed : ∀ (n : Nat) (earlier meanwhile later : List Event),
    events = earlier ++ ⟨n, .read⟩ :: meanwhile ++ later → (∀ x ∈ meanwhile, x.task ≠ n) →
      ∀ x ∈ meanwhile, x.action.isWrite = false
  /-- When the flag is down, all that was submitted is recorded. -/
  flushed : w.shared.writing = false → applied events = submitted events
  /-- The queue and the flag are those of the recorder that makes every change at once, and so is the store when nobody is
  amid a change. -/
  replayed : ((Recorder.ofHistory h s).replay events).queue = w.shared.queue ∧
    ((Recorder.ofHistory h s).replay events).writing = w.shared.writing ∧
    (w.shared.locked = false → ((Recorder.ofHistory h s).replay events).store = w.shared.store)

/-- Never are two writers scheduled or running. -/
theorem Regular.running_le_one {s : σ} {events : List Event} (hw : Regular h s events w) :
    w.tasks.countP Task.isRunning ≤ 1 := by
  have hone := hw.one_writer
  have hle := Bool.toNat_le w.shared.writing
  omega

/-- Exactly one is when the flag is up, once no caller is about to schedule it. -/
theorem Regular.running_eq_one {s : σ} {events : List Event} (hw : Regular h s events w) (hup : w.shared.writing = true)
    (hstarted : ∀ t ∈ w.tasks, t.isStarting = false) : w.tasks.countP Task.isRunning = 1 := by
  have hone := hw.one_writer
  have hnone : w.tasks.countP Task.isStarting = 0 := List.countP_eq_zero.2 fun t ht => Bool.not_eq_true _ ▸ hstarted t ht
  rwa [hnone, hup, Bool.toNat_true, Nat.zero_add] at hone

/-- **Whatever callers and writers do in whatever order**, there is never a second writer, nothing is left behind, entries
are recorded once each in the order of their submission, and no change falls into the middle of another. -/
theorem regular_of_run (h : History) (s : σ) (callers : Nat) {events : List Event} {w : World σ}
    (hrun : Run h (start s callers) events w) : Regular h s events w := by
  have hstart := exclusive_start s callers
  have hfollows := hrun.follows (follows_start h s callers) hstart
  have haccount : submitted events = applied events ++ w.pending ++ w.shared.queue := by
    have hidle : (start s callers).pending ++ (start s callers).shared.queue = [] :=
      (follows_start h s callers).pending_eq
    have haccount := hrun.account (follows_start h s callers) hstart
    rwa [hidle] at haccount
  have hpending : w.shared.writing = false → w.pending ++ w.shared.queue = [] := by
    intro hdown
    rw [hfollows.pending_eq]
    exact hfollows.sound.pending_eq_nil (hfollows.writing.trans hdown)
  refine ⟨?_, ?_, haccount, ?_, ?_, hfollows.queue, hfollows.writing, ?_⟩
  · rw [← length_writers, ← hfollows.writers, hfollows.sound.writers, hfollows.writing]
  · intro hne
    by_contra hdown
    obtain ⟨hp, hq⟩ := List.append_eq_nil_iff.1 (hpending (Bool.not_eq_true _ ▸ hdown))
    exact hne.elim (fun h => h hq) fun h => h hp
  · intro n earlier meanwhile later hevents hothers
    rw [hevents] at hrun
    exact hrun.undisturbed hstart hothers
  · intro hdown
    rw [haccount, List.append_assoc, hpending hdown, List.append_nil]
  · intro hfree
    have hagrees := hfollows.store
    rw [(hrun.exclusive hstart).loads_eq_nil hfree] at hagrees
    exact Eq.symm hagrees

/-- While one caller submits, another clears the history; the writer that the first has scheduled waits for the lock. -/
def overlapping : List Event :=
  [⟨1, .call .clear⟩, ⟨0, .submit ⟨"rust".toList, 1, 3⟩⟩, ⟨1, .lock⟩, ⟨0, .start⟩, ⟨1, .read⟩,
    ⟨2, .take ⟨"rust".toList, 1, 3⟩⟩, ⟨1, .write (.call .clear)⟩, ⟨1, .unlock⟩, ⟨2, .lock⟩, ⟨2, .read⟩,
    ⟨2, .write (.entry ⟨"rust".toList, 1, 3⟩)⟩, ⟨2, .unlock⟩, ⟨2, .stop⟩]

theorem run_overlapping : ∃ w, Run History.two (start (∅ : Dictionary Text) 2) overlapping w ∧ w.shared.writing = false :=
  ⟨_, .cons (.of [.idle] [] (.call _ _)) <| .cons (.of [] [_] (.submit _ _)) <| .cons (.of [_] [] (.lock _ _ rfl)) <|
    .cons (.of [] [_] (.start _)) <| .cons (.of [_] [_] (.read _ _)) <| .cons (.of [_, _] [] (.take _ _ _ rfl)) <|
    .cons (.of [_] [_] (.write _ _ _)) <| .cons (.of [_] [_] (.unlockCaller _ _)) <|
    .cons (.of [_, _] [] (.lock _ _ rfl)) <| .cons (.of [_, _] [] (.read _ _)) <|
    .cons (.of [_, _] [] (.write _ _ _)) <| .cons (.of [_, _] [] (.unlockWriter _ _)) <|
    .cons (.of [_, _] [] (.stop _ rfl)) <| .nil _, rfl⟩

theorem regular_of_run_overlapping :
    ∃ w, Run History.two (start (∅ : Dictionary Text) 2) overlapping w ∧ w.shared.writing = false ∧
      Regular History.two (∅ : Dictionary Text) overlapping w := by
  obtain ⟨w, hrun, hdown⟩ := run_overlapping
  exact ⟨w, hrun, hdown, regular_of_run History.two ∅ 2 hrun⟩

end World
end ContentSearch
