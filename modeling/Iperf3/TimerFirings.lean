import Iperf3.TimerOrder
import Mathlib.Tactic

/-!
# What a run of the timers fires

The loop of `tmr_run` goes along the active list while it is being resorted:
a periodic timer that has fired may still be due, and is met again only if it
is put back behind the current place.  The callbacks here do not touch
timers, and the loop keeps a record of them.
-/

namespace Iperf3

namespace TimerQueue

open LinkedList MachineInt

variable {κ : Type*} {q q' : TimerQueue κ} {now : IperfTime} {t u : ℕ}

/-! ## Expiry times -/

def Due (now time : IperfTime) : Prop :=
  time.compare now ≠ .gt

instance (now time : IperfTime) : Decidable (Due now time) := by
  unfold Due
  infer_instance

theorem due_iff (time : IperfTime) : Due now time ↔ time.key ≤ now.key := by
  rw [Due, Ne, IperfTime.compare_eq_gt_iff, not_lt]

/-- A move by `usecs` microseconds keeps the seconds in 32 bits. -/
def NoWrap (time : IperfTime) (usecs : ℤ) : Prop :=
  time.secs + (time.usecs + usecs) / 1000000 < 4294967296

theorem schedule_eq {time : IperfTime} {usecs : ℤ} (hpos : 1 ≤ usecs) (h : NoWrap time usecs) :
    ((schedule time usecs).secs : ℤ) = time.secs + (time.usecs + usecs) / 1000000 ∧
      ((schedule time usecs).usecs : ℤ) = (time.usecs + usecs) % 1000000 := by
  have hsecs := time.secs_lt
  have husecs := time.usecs_lt
  unfold NoWrap at h
  have hperiod : (uint64 usecs : ℤ) = usecs := uint64_of_mem (by omega) (by omega)
  have hroom : time.secs + (time.usecs + uint64 usecs) / 1000000 < 4294967296 := by omega
  obtain ⟨hmovedSecs, hmovedUsecs⟩ := time.addUsecs_eq hroom
  unfold schedule
  omega

theorem inUsecs_schedule {time : IperfTime} {usecs : ℤ} (hpos : 1 ≤ usecs)
    (h : NoWrap time usecs) : ((schedule time usecs).inUsecs : ℤ) = time.inUsecs + usecs := by
  obtain ⟨hsecs, husecs⟩ := schedule_eq hpos h
  unfold IperfTime.inUsecs
  push_cast
  omega

theorem key_lt_schedule {time : IperfTime} {usecs : ℤ} (hpos : 1 ≤ usecs)
    (h : NoWrap time usecs) : time.key < (schedule time usecs).key := by
  obtain ⟨hsecs, husecs⟩ := schedule_eq hpos h
  rw [IperfTime.key, IperfTime.key, Prod.Lex.toLex_lt_toLex]
  simp only
  omega

/-- A number that grows with the expiry. -/
def rank (time : IperfTime) : ℕ :=
  time.secs * 4294967296 + time.usecs

theorem rank_lt_rank {time time' : IperfTime} (h : time.key < time'.key) :
    rank time < rank time' := by
  have husecs := time.usecs_lt
  rw [IperfTime.key, IperfTime.key, Prod.Lex.toLex_lt_toLex] at h
  unfold rank
  rcases h with h | ⟨h, h'⟩
  · simp only at h
    omega
  · simp only at h h'
    omega

theorem rank_le_rank {time time' : IperfTime} (h : time.key ≤ time'.key) :
    rank time ≤ rank time' := by
  rcases h.lt_or_eq with hlt | heq
  · exact (rank_lt_rank hlt).le
  · have hpair : (time.secs, time.usecs) = (time'.secs, time'.usecs) := heq
    rw [Prod.mk.injEq] at hpair
    unfold rank
    omega

/-- The expiry of a periodic timer after `n` more firings. -/
def expiry (q : TimerQueue κ) (t n : ℕ) : IperfTime :=
  (fun time => schedule time (q.memory t).usecs)^[n] (q.memory t).time

/-- Every period is at least a microsecond, and no due expiry of a periodic
timer is moved past the 32 bits of its seconds. -/
def Advances (now : IperfTime) (q : TimerQueue κ) : Prop :=
  ∀ t ∈ q.live, (q.memory t).periodic = true →
    1 ≤ (q.memory t).usecs ∧
      ∀ n, Due now (q.expiry t n) → NoWrap (q.expiry t n) (q.memory t).usecs

theorem expiry_succ (q : TimerQueue κ) (t n : ℕ) :
    q.expiry t (n + 1) = schedule (q.expiry t n) (q.memory t).usecs :=
  Function.iterate_succ_apply' _ n _

theorem content_eq {timer timer' : Timer κ} (h : content timer' = content timer) :
    timer'.time = timer.time ∧ timer'.usecs = timer.usecs ∧
      timer'.periodic = timer.periodic := by
  have htime := congrArg Timer.time h
  have husecs := congrArg Timer.usecs h
  have hperiodic := congrArg Timer.periodic h
  exact ⟨htime, husecs, hperiodic⟩

theorem expiry_congr (h : content (q'.memory t) = content (q.memory t)) (n : ℕ) :
    q'.expiry t n = q.expiry t n := by
  obtain ⟨htime, husecs, -⟩ := content_eq h
  unfold expiry
  rw [htime, husecs]

theorem expiry_of_moved
    (h : content (q'.memory t) =
      content { q.memory t with time := schedule (q.memory t).time (q.memory t).usecs })
    (n : ℕ) : q'.expiry t n = q.expiry t (n + 1) := by
  obtain ⟨htime, husecs, -⟩ := content_eq h
  unfold expiry
  rw [htime, husecs, Function.iterate_succ_apply]

/-! ## Contents of nodes -/

theorem content_setNext (u t : ℕ) (target : Option ℕ) (q : TimerQueue κ) :
    content ((q.setNext u target).memory t) = content (q.memory t) := by
  by_cases htu : t = u
  · subst htu
    simp [setNext, write, content]
  · simp [setNext, write, Function.update_of_ne htu]

theorem content_setPrev (u t : ℕ) (target : Option ℕ) (q : TimerQueue κ) :
    content ((q.setPrev u target).memory t) = content (q.memory t) := by
  by_cases htu : t = u
  · subst htu
    simp [setPrev, write, content]
  · simp [setPrev, write, Function.update_of_ne htu]

theorem content_walk (u t bound t2prev : ℕ) (t2 : Option ℕ) (q : TimerQueue κ) :
    content ((q.walk u bound t2prev t2).memory t) = content (q.memory t) := by
  induction bound generalizing t2prev t2 with
  | zero => rfl
  | succ bound ih =>
      cases t2 with
      | none =>
          unfold walk
          rw [content_setNext, content_setPrev, content_setNext]
      | some t2 =>
          unfold walk
          split_ifs
          · rw [content_setPrev, content_setNext, content_setPrev, content_setNext]
          · exact ih _ _

theorem content_listAdd (u t : ℕ) (q : TimerQueue κ) :
    content ((q.listAdd u).memory t) = content (q.memory t) := by
  unfold listAdd
  cases q.timers with
  | none =>
      simp only
      rw [content_setNext, content_setPrev]
  | some head =>
      simp only
      split_ifs
      · rw [content_setPrev, content_setNext, content_setPrev]
      · exact content_walk _ _ _ _ _ _

theorem content_listRemove (u t : ℕ) (q : TimerQueue κ) :
    content ((q.listRemove u).memory t) = content (q.memory t) := by
  unfold listRemove
  cases (q.memory u).prev <;> cases (q.memory u).next <;>
    simp only [content_setPrev, content_setNext]

theorem content_reschedule (t : ℕ) (q : TimerQueue κ) :
    content ((q.reschedule t).memory t) =
      content { q.memory t with time := schedule (q.memory t).time (q.memory t).usecs } := by
  change content ((((q.setTime t _).listRemove t).listAdd t).memory t) = _
  rw [content_listAdd, content_listRemove]
  simp [setTime, write]

theorem content_reschedule_of_ne (h : u ≠ t) (q : TimerQueue κ) :
    content ((q.reschedule t).memory u) = content (q.memory u) := by
  change content ((((q.setTime t _).listRemove t).listAdd t).memory u) = _
  rw [content_listAdd, content_listRemove]
  simp [setTime, write, Function.update_of_ne h]

theorem content_tmrCancel (t u : ℕ) (q : TimerQueue κ) :
    content ((q.tmrCancel t).memory u) = content (q.memory u) := by
  change content ((((q.listRemove t).setNext t _).setPrev t none).memory u) = _
  rw [content_setPrev, content_setNext, content_listRemove]

/-! ## The loop with a record -/

/-- The callbacks of the loop, each with the timer and its expiry, and the
queue behind it.  There are none if the loop makes more than `bound`. -/
def firings (now : IperfTime) :
    ℕ → Option ℕ → TimerQueue κ → Option (List (ℕ × IperfTime) × TimerQueue κ)
  | _, none, q => some ([], q)
  | bound, some t, q =>
      if (q.memory t).time.compare now = .gt then some ([], q)
      else
        match bound with
        | 0 => none
        | bound + 1 =>
            (firings now bound (q.memory t).next (q.fire t [])).map fun (later, q') =>
              ((t, (q.memory t).time) :: later, q')

theorem runLoop_of_firings
    {bound : ℕ} {current : Option ℕ} {fired : List (ℕ × IperfTime)}
    (h : firings now bound current q = some (fired, q')) {callbacks : ℕ}
    (hcallbacks : fired.length ≤ callbacks) :
    q.runLoop now (List.replicate callbacks []) current = q' := by
  induction bound generalizing q current fired callbacks with
  | zero =>
      cases current with
      | none =>
          cases h
          cases callbacks <;> rfl
      | some t =>
          unfold firings at h
          split_ifs at h with hlater
          cases h
          cases callbacks with
          | zero => rfl
          | succ callbacks => exact if_pos hlater
  | succ bound ih =>
      cases current with
      | none =>
          cases h
          cases callbacks <;> rfl
      | some t =>
          unfold firings at h
          split_ifs at h with hlater
          · cases h
            cases callbacks with
            | zero => rfl
            | succ callbacks => exact if_pos hlater
          · obtain ⟨⟨later, final⟩, hrest, heq⟩ := Option.map_eq_some_iff.mp h
            cases heq
            obtain ⟨callbacks, rfl⟩ := Nat.exists_eq_succ_of_ne_zero
              (Nat.ne_zero_of_lt (Nat.lt_of_lt_of_le (Nat.succ_pos _) hcallbacks))
            rw [List.replicate_succ]
            unfold runLoop
            rw [if_neg hlater]
            exact ih hrest (Nat.le_of_succ_le_succ hcallbacks)

theorem firings_mono
    {bound bound' : ℕ} {current : Option ℕ} {out : List (ℕ × IperfTime) × TimerQueue κ}
    (h : firings now bound current q = some out) (hle : bound ≤ bound') :
    firings now bound' current q = some out := by
  induction bound generalizing q current out bound' with
  | zero =>
      cases current with
      | none =>
          unfold firings at h ⊢
          exact h
      | some t =>
          unfold firings at h ⊢
          split_ifs at h ⊢ with hlater
          exact h
  | succ bound ih =>
      obtain ⟨bound', rfl⟩ := Nat.exists_eq_succ_of_ne_zero
        (Nat.ne_zero_of_lt (Nat.lt_of_lt_of_le (Nat.succ_pos _) hle))
      cases current with
      | none =>
          unfold firings at h ⊢
          exact h
      | some t =>
          unfold firings at h ⊢
          split_ifs at h ⊢ with hlater
          · exact h
          · obtain ⟨rest, hrest, heq⟩ := Option.map_eq_some_iff.mp h
            change (firings now bound' (q.memory t).next (q.fire t [])).map _ = _
            rw [ih hrest (Nat.le_of_succ_le_succ hle)]
            exact congrArg some heq

/-! ## One firing -/

/-- What is left of the distance from the timers to `now`. -/
def remaining (now : IperfTime) (q : TimerQueue κ) (active : List ℕ) : ℕ :=
  (active.map fun t => rank now + 1 - rank (q.memory t).time).sum

theorem remaining_perm {l l' : List ℕ} (h : l.Perm l') :
    remaining now q l = remaining now q l' :=
  (h.map _).sum_eq

theorem remaining_congr {l : List ℕ}
    (h : ∀ t ∈ l, (q'.memory t).time = (q.memory t).time) :
    remaining now q' l = remaining now q l := by
  unfold remaining
  rw [List.map_congr_left]
  intro t ht
  rw [h t ht]

section Firing

variable {xs ys free : List ℕ}

theorem Represents.active_parts (h : Represents q q.live (xs ++ t :: ys) free) :
    t ∈ q.live ∧ t ∉ xs ++ ys ∧ (xs ++ t :: ys).erase t = xs ++ ys := by
  have hnodup := (List.nodup_append.mp h.nodup).1
  have hperm : (xs ++ t :: ys).Perm (t :: (xs ++ ys)) := List.perm_middle
  have hmiddle := hperm.nodup_iff.mp hnodup
  have hnotin := (List.nodup_cons.mp hmiddle).1
  refine ⟨h.members.mem_iff.mp (by simp), hnotin, ?_⟩
  have hxs : t ∉ xs := fun hmem => hnotin (List.mem_append_left ys hmem)
  rw [List.erase_append_right _ hxs, List.erase_cons_head]

theorem Represents.next_eq (h : Represents q q.live (xs ++ t :: ys) free) :
    (q.memory t).next = ys.head? := by
  rcases next_cases h.linked with ⟨rfl, hnext⟩ | ⟨b, rest, rfl, hnext⟩
  · exact hnext
  · exact hnext

theorem Represents.fire_oneShot
    (h : Represents q q.live (xs ++ t :: ys) free) (honeShot : (q.memory t).periodic = false) :
    Represents (q.fire t []) (q.fire t []).live (xs ++ ys) (t :: free) ∧
      ∀ u, content ((q.fire t []).memory u) = content (q.memory u) := by
  have hfire : q.fire t [] = q.tmrCancel t := by
    change (if (q.memory t).periodic then q.reschedule t else q.tmrCancel t) = _
    rw [honeShot, if_neg Bool.false_ne_true]
  obtain ⟨hlive, -, herase⟩ := h.active_parts
  have hcancelled := h.cancel hlive
  rw [herase] at hcancelled
  rw [hfire, tmrCancel_live]
  exact ⟨hcancelled, fun u => content_tmrCancel t u q⟩

/-- A periodic timer is put back with its next expiry, and the list behind it
still begins with the same timer. -/
theorem Represents.fire_periodic
    (h : Represents q q.live (xs ++ t :: ys) free) (hperiodic : (q.memory t).periodic = true) :
    (∃ front back, Represents (q.fire t []) (q.fire t []).live (front ++ back) free ∧
      (front ++ back).Perm (t :: (xs ++ ys)) ∧ back.head? = ys.head? ∧ ys ⊆ back ∧
      back ⊆ t :: ys) ∧
    content ((q.fire t []).memory t) =
      content { q.memory t with time := schedule (q.memory t).time (q.memory t).usecs } ∧
    ∀ u, u ≠ t → content ((q.fire t []).memory u) = content (q.memory u) := by
  have hfire : q.fire t [] = q.reschedule t := by
    change (if (q.memory t).periodic then q.reschedule t else q.tmrCancel t) = _
    rw [hperiodic, if_pos rfl]
  obtain ⟨hlive, -, herase⟩ := h.active_parts
  have hmoved := (h.listRemove hlive (schedule (q.memory t).time (q.memory t).usecs)).listAdd
  rw [herase] at hmoved
  obtain ⟨front, back, hsplit, hhead, hkept, hnew⟩ := insertBy_append
    ((q.setTime t (schedule (q.memory t).time (q.memory t).usecs)).listRemove t).time t xs ys
  rw [hsplit] at hmoved
  have hperm : (front ++ back).Perm (t :: (xs ++ ys)) := by
    rw [← hsplit]
    exact insertBy_perm
  rw [hfire]
  exact ⟨⟨front, back, { hmoved with }, hperm, hhead, hkept, hnew⟩, content_reschedule t q,
    fun u hu => content_reschedule_of_ne hu q⟩

end Firing

/-! ## A whole run -/

def expiriesOf (t : ℕ) (fired : List (ℕ × IperfTime)) : List IperfTime :=
  (fired.filter fun firing => firing.1 = t).map Prod.snd

/-- A periodic timer has fired at its first expiries, one after the other, and
stands at the next one. -/
structure PeriodsFired (q q' : TimerQueue κ) (active : List ℕ) (fired : List (ℕ × IperfTime))
    (t : ℕ) : Prop where
  expiries : expiriesOf t fired = (List.range (expiriesOf t fired).length).map (q.expiry t)
  active : t ∈ active
  moved : content (q'.memory t) =
    content { q.memory t with time := q.expiry t (expiriesOf t fired).length }

/-- A one-shot timer has not fired, or it has fired once and is free. -/
structure ShotFired (q q' : TimerQueue κ) (active free : List ℕ)
    (fired : List (ℕ × IperfTime)) (t : ℕ) : Prop where
  same : content (q'.memory t) = content (q.memory t)
  waits : expiriesOf t fired = [] → t ∈ active
  fires : expiriesOf t fired ≠ [] →
    expiriesOf t fired = [(q.memory t).time] ∧ t ∈ free ∧ t ∉ active

/-- From the place in front of `ys` on, the timers of the list `before` have
fired like this.  Of the two lists the one of free timers has grown. -/
structure Fires (now : IperfTime) (q : TimerQueue κ) (before before' ys : List ℕ)
    (fired : List (ℕ × IperfTime)) (q' : TimerQueue κ) (active free : List ℕ) : Prop where
  represents : Represents q' q'.live active free
  due : ∀ firing ∈ fired, firing.1 ∈ before ∧ Due now firing.2
  ordered : (fired.map fun firing => firing.2.key).Pairwise (· ≤ ·)
  low : ∀ k, (∀ t ∈ ys, k ≤ q.time t) → ∀ firing ∈ fired, k ≤ firing.2.key
  covered : ∀ t ∈ ys, Due now (q.memory t).time → expiriesOf t fired ≠ []
  periodic : ∀ t ∈ before, (q.memory t).periodic = true → PeriodsFired q q' active fired t
  oneShot : ∀ t ∈ before, (q.memory t).periodic = false → ShotFired q q' active free fired t
  outside : ∀ t, t ∉ before → content (q'.memory t) = content (q.memory t)
  active_subset : active ⊆ before
  free_superset : before' ⊆ free

theorem expiriesOf_cons_self (t : ℕ) (time : IperfTime) (fired : List (ℕ × IperfTime)) :
    expiriesOf t ((t, time) :: fired) = time :: expiriesOf t fired := by
  simp [expiriesOf]

theorem expiriesOf_cons_of_ne (h : u ≠ t) (time : IperfTime) (fired : List (ℕ × IperfTime)) :
    expiriesOf u ((t, time) :: fired) = expiriesOf u fired := by
  simp [expiriesOf, h.symm]

theorem expiriesOf_eq_nil {fired : List (ℕ × IperfTime)} (h : ∀ firing ∈ fired, firing.1 ≠ t) :
    expiriesOf t fired = [] := by
  rw [expiriesOf, List.map_eq_nil_iff, List.filter_eq_nil_iff]
  intro firing hmem
  simpa using h firing hmem

theorem fires_nil {before ys free : List ℕ} (h : Represents q q.live before free)
    (hlater : ∀ t ∈ ys, ¬ Due now (q.memory t).time) :
    Fires now q before free ys [] q before free where
  represents := h
  due := by simp
  ordered := List.Pairwise.nil
  low := by simp
  covered := fun t ht hdue => absurd hdue (hlater t ht)
  periodic := fun _ ht _ => ⟨rfl, ht, rfl⟩
  oneShot := fun _ ht _ => ⟨rfl, fun _ => ht, fun hfired => absurd rfl hfired⟩
  outside := fun _ _ => rfl
  active_subset := fun _ ht => ht
  free_superset := fun _ ht => ht

section Steps

variable {xs ys front back free active free' : List ℕ} {later : List (ℕ × IperfTime)}

theorem Represents.le_of_behind (h : Represents q q.live (xs ++ t :: ys) free) :
    ∀ y ∈ ys, q.time t ≤ q.time y :=
  (List.pairwise_cons.mp (List.pairwise_append.mp h.sorted).2.1).1

theorem time_congr (h : content (q'.memory t) = content (q.memory t)) : q'.time t = q.time t :=
  congrArg IperfTime.key (content_eq h).1

theorem PeriodsFired.congr {q1 : TimerQueue κ} {fired : List (ℕ × IperfTime)}
    (h : PeriodsFired q1 q' active later t)
    (hcontent : content (q1.memory t) = content (q.memory t))
    (hexpiries : expiriesOf t fired = expiriesOf t later) :
    PeriodsFired q q' active fired t := by
  have hexpiry : q1.expiry t = q.expiry t := funext fun n => expiry_congr hcontent n
  constructor
  · rw [hexpiries, ← hexpiry]
    exact h.expiries
  · exact h.active
  · rw [h.moved, hexpiries, hexpiry]
    exact congrArg (fun timer => { timer with time := q.expiry t (expiriesOf t later).length })
      hcontent

theorem ShotFired.congr {q1 : TimerQueue κ} {fired : List (ℕ × IperfTime)}
    (h : ShotFired q1 q' active free' later t)
    (hcontent : content (q1.memory t) = content (q.memory t))
    (hexpiries : expiriesOf t fired = expiriesOf t later) :
    ShotFired q q' active free' fired t := by
  constructor
  · rw [h.same, hcontent]
  · rw [hexpiries]
    exact h.waits
  · rw [hexpiries, ← (content_eq hcontent).1]
    exact h.fires

/-- The timer that has just fired goes on with its later expiries. -/
theorem PeriodsFired.cons_self {q1 : TimerQueue κ} (h : PeriodsFired q1 q' active later t)
    (hmoved : content (q1.memory t) =
      content { q.memory t with time := schedule (q.memory t).time (q.memory t).usecs }) :
    PeriodsFired q q' active ((t, (q.memory t).time) :: later) t := by
  have hexpiry : ∀ n, q1.expiry t n = q.expiry t (n + 1) := expiry_of_moved hmoved
  constructor
  · rw [expiriesOf_cons_self, List.length_cons, List.range_succ_eq_map, List.map_cons,
      List.map_map]
    congr 1
    exact h.expiries.trans (List.map_congr_left fun n _ => hexpiry n)
  · exact h.active
  · rw [h.moved, expiriesOf_cons_self, List.length_cons, hexpiry]
    exact congrArg
      (fun timer => { timer with time := q.expiry t ((expiriesOf t later).length + 1) }) hmoved

section Cons

variable {q1 : TimerQueue κ} {before before1 : List ℕ}
  (hrest : Fires now q1 before before1 back later q' active free')
  (hbehind : ∀ y ∈ back, q.time t ≤ q1.time y)

include hrest hbehind

theorem Fires.low_cons {k : ℕ ×ₗ ℕ} (hk : k ≤ q.time t) :
    ∀ firing ∈ (t, (q.memory t).time) :: later, k ≤ firing.2.key := by
  intro firing hmem
  rcases List.mem_cons.mp hmem with rfl | hmem
  · exact hk
  · exact hrest.low k (fun y hy => hk.trans (hbehind y hy)) firing hmem

theorem Fires.ordered_cons :
    (((t, (q.memory t).time) :: later).map fun firing => firing.2.key).Pairwise (· ≤ ·) := by
  rw [List.map_cons]
  refine List.pairwise_cons.mpr ⟨?_, hrest.ordered⟩
  intro k hk
  obtain ⟨firing, hmem, rfl⟩ := List.mem_map.mp hk
  exact hrest.low _ hbehind firing hmem

omit hbehind

theorem Fires.covered_cons (hkept : ∀ u ∈ ys, u ≠ t → u ∈ back)
    (hsame : ∀ u ≠ t, content (q1.memory u) = content (q.memory u)) :
    ∀ u ∈ t :: ys, Due now (q.memory u).time →
      expiriesOf u ((t, (q.memory t).time) :: later) ≠ [] := by
  intro u hu hdue
  by_cases hut : u = t
  · subst hut
    rw [expiriesOf_cons_self]
    exact List.cons_ne_nil _ _
  · rw [expiriesOf_cons_of_ne hut]
    refine hrest.covered u (hkept u ((List.mem_cons.mp hu).resolve_left hut) hut) ?_
    rwa [(content_eq (hsame u hut)).1]

end Cons

theorem Fires.oneShot_cons
    (h : Represents q q.live (xs ++ t :: ys) free) (honeShot : (q.memory t).periodic = false)
    (hdue : Due now (q.memory t).time)
    (hrest : Fires now (q.fire t []) (xs ++ ys) (t :: free) ys later q' active free') :
    Fires now q (xs ++ t :: ys) free (t :: ys) ((t, (q.memory t).time) :: later) q' active
      free' := by
  obtain ⟨-, hcontent⟩ := h.fire_oneShot honeShot
  obtain ⟨-, hnotin, -⟩ := h.active_parts
  have hperm : (xs ++ t :: ys).Perm (t :: (xs ++ ys)) := List.perm_middle
  have hother : ∀ u ∈ xs ++ ys, u ≠ t := fun u hu hut => hnotin (hut ▸ hu)
  have hmine : expiriesOf t later = [] :=
    expiriesOf_eq_nil fun firing hmem => hother _ (hrest.due firing hmem).1
  have hbehind : ∀ y ∈ ys, q.time t ≤ (q.fire t []).time y := by
    intro y hy
    rw [time_congr (hcontent y)]
    exact h.le_of_behind y hy
  refine
    { represents := hrest.represents
      due := ?_
      ordered := hrest.ordered_cons hbehind
      low := fun k hk => hrest.low_cons hbehind (hk t List.mem_cons_self)
      covered := hrest.covered_cons (fun u hu _ => hu) fun u _ => hcontent u
      periodic := ?_
      oneShot := ?_
      outside := ?_
      active_subset := fun u hu =>
        hperm.mem_iff.mpr (List.mem_cons_of_mem _ (hrest.active_subset hu))
      free_superset := fun u hu => hrest.free_superset (List.mem_cons_of_mem _ hu) }
  · intro firing hmem
    rcases List.mem_cons.mp hmem with rfl | hmem
    · exact ⟨hperm.mem_iff.mpr List.mem_cons_self, hdue⟩
    · obtain ⟨hbefore, hfiring⟩ := hrest.due firing hmem
      exact ⟨hperm.mem_iff.mpr (List.mem_cons_of_mem _ hbefore), hfiring⟩
  · intro u hu huperiodic
    have hut : u ≠ t := by
      rintro rfl
      rw [honeShot] at huperiodic
      cases huperiodic
    have hmem : u ∈ xs ++ ys := (List.mem_cons.mp (hperm.mem_iff.mp hu)).resolve_left hut
    have hkept := hrest.periodic u hmem (by rwa [(content_eq (hcontent u)).2.2])
    exact hkept.congr (hcontent u) (expiriesOf_cons_of_ne hut _ _)
  · intro u hu huoneShot
    by_cases hut : u = t
    · -- the timer that has just fired is not on the list any more
      subst hut
      have hfired : expiriesOf u ((u, (q.memory u).time) :: later) = [(q.memory u).time] := by
        rw [expiriesOf_cons_self, hmine]
      refine ⟨(hrest.outside u hnotin).trans (hcontent u), fun hnil => ?_, fun _ => ?_⟩
      · rw [hfired] at hnil
        cases hnil
      · exact ⟨hfired, hrest.free_superset List.mem_cons_self,
          fun hact => hnotin (hrest.active_subset hact)⟩
    · have hmem : u ∈ xs ++ ys := (List.mem_cons.mp (hperm.mem_iff.mp hu)).resolve_left hut
      have hkept := hrest.oneShot u hmem (by rwa [(content_eq (hcontent u)).2.2])
      exact hkept.congr (hcontent u) (expiriesOf_cons_of_ne hut _ _)
  · intro u hu
    have hrestu : u ∉ xs ++ ys := fun hmem => hu (hperm.mem_iff.mpr (List.mem_cons_of_mem _ hmem))
    exact (hrest.outside u hrestu).trans (hcontent u)

theorem Fires.periodic_cons
    (h : Represents q q.live (xs ++ t :: ys) free) (hperiodic : (q.memory t).periodic = true)
    (hlater : (q.memory t).time.key <
      (schedule (q.memory t).time (q.memory t).usecs).key)
    (hdue : Due now (q.memory t).time) (hperm : (front ++ back).Perm (t :: (xs ++ ys)))
    (hkept : ys ⊆ back) (hnew : back ⊆ t :: ys)
    (hrest : Fires now (q.fire t []) (front ++ back) free back later q' active free') :
    Fires now q (xs ++ t :: ys) free (t :: ys) ((t, (q.memory t).time) :: later) q' active
      free' := by
  obtain ⟨-, hmoved, hcontent⟩ := h.fire_periodic hperiodic
  have hsame : (front ++ back).Perm (xs ++ t :: ys) := hperm.trans List.perm_middle.symm
  -- nothing behind the timer comes before it, itself included
  have hbehind : ∀ y ∈ back, q.time t ≤ (q.fire t []).time y := by
    intro y hy
    by_cases hyt : y = t
    · subst hyt
      have htime := congrArg IperfTime.key (content_eq hmoved).1
      exact hlater.le.trans_eq htime.symm
    · rw [time_congr (hcontent y hyt)]
      exact h.le_of_behind y ((List.mem_cons.mp (hnew hy)).resolve_left hyt)
  refine
    { represents := hrest.represents
      due := ?_
      ordered := hrest.ordered_cons hbehind
      low := fun k hk => hrest.low_cons hbehind (hk t List.mem_cons_self)
      covered := hrest.covered_cons (fun u hu _ => hkept hu) hcontent
      periodic := ?_
      oneShot := ?_
      outside := ?_
      active_subset := fun u hu => hsame.mem_iff.mp (hrest.active_subset hu)
      free_superset := hrest.free_superset }
  · intro firing hmem
    rcases List.mem_cons.mp hmem with rfl | hmem
    · exact ⟨by simp, hdue⟩
    · obtain ⟨hbefore, hfiring⟩ := hrest.due firing hmem
      exact ⟨hsame.mem_iff.mp hbefore, hfiring⟩
  · intro u hu huperiodic
    by_cases hut : u = t
    · subst hut
      have hfired := hrest.periodic u (hsame.mem_iff.mpr hu)
        ((content_eq hmoved).2.2.trans huperiodic)
      exact hfired.cons_self hmoved
    · have hfired := hrest.periodic u (hsame.mem_iff.mpr hu)
        (by rwa [(content_eq (hcontent u hut)).2.2])
      exact hfired.congr (hcontent u hut) (expiriesOf_cons_of_ne hut _ _)
  · intro u hu huoneShot
    have hut : u ≠ t := by
      rintro rfl
      rw [hperiodic] at huoneShot
      cases huoneShot
    have hfired := hrest.oneShot u (hsame.mem_iff.mpr hu)
      (by rwa [(content_eq (hcontent u hut)).2.2])
    exact hfired.congr (hcontent u hut) (expiriesOf_cons_of_ne hut _ _)
  · intro u hu
    have hut : u ≠ t := by
      rintro rfl
      exact hu (by simp)
    exact (hrest.outside u fun hmem => hu (hsame.mem_iff.mp hmem)).trans (hcontent u hut)

end Steps

theorem Advances.of_content
    (h : Advances now q) (hlive : ∀ t ∈ q'.live, t ∈ q.live)
    (hcontent : ∀ t ∈ q'.live, content (q'.memory t) = content (q.memory t) ∨
      content (q'.memory t) =
        content { q.memory t with time := schedule (q.memory t).time (q.memory t).usecs }) :
    Advances now q' := by
  intro t ht hperiodic
  rcases hcontent t ht with hsame | hmoved
  · obtain ⟨-, husecs, hflag⟩ := content_eq hsame
    obtain ⟨hpos, hroom⟩ := h t (hlive t ht) (hflag ▸ hperiodic)
    rw [husecs]
    refine ⟨hpos, fun n hdue => ?_⟩
    rw [expiry_congr hsame] at hdue ⊢
    exact hroom n hdue
  · obtain ⟨-, husecs, hflag⟩ := content_eq hmoved
    change (q'.memory t).periodic = (q.memory t).periodic at hflag
    obtain ⟨hpos, hroom⟩ := h t (hlive t ht) (hflag ▸ hperiodic)
    change (q'.memory t).usecs = (q.memory t).usecs at husecs
    rw [husecs]
    refine ⟨hpos, fun n hdue => ?_⟩
    rw [expiry_of_moved hmoved] at hdue ⊢
    exact hroom (n + 1) hdue

theorem remaining_cons (t : ℕ) (l : List ℕ) :
    remaining now q (t :: l) = rank now + 1 - rank (q.memory t).time + remaining now q l :=
  List.sum_cons

theorem firings_of_later
    {xs ys free : List ℕ} (h : Represents q q.live (xs ++ t :: ys) free)
    (hlater : ¬ Due now (q.memory t).time) (bound : ℕ) :
    firings now bound (some t) q = some ([], q) ∧
      Fires now q (xs ++ t :: ys) free (t :: ys) [] q (xs ++ t :: ys) free := by
  constructor
  · unfold firings
    exact if_pos (not_not.mp hlater)
  · apply fires_nil h
    intro y hy
    rw [due_iff, not_le] at hlater ⊢
    rcases List.mem_cons.mp hy with rfl | hy
    · exact hlater
    · exact hlater.trans_le (h.le_of_behind y hy)

/-- The induction is on the distance of all active timers to `now`: every
firing uses up some of it. -/
theorem firings_spec
    (bound : ℕ) {q : TimerQueue κ} {xs ys free : List ℕ}
    (h : Represents q q.live (xs ++ ys) free) (hadvances : Advances now q)
    (hbound : remaining now q (xs ++ ys) ≤ bound) :
    ∃ fired q' active free', firings now bound ys.head? q = some (fired, q') ∧
      Fires now q (xs ++ ys) free ys fired q' active free' := by
  induction bound generalizing q xs ys free with
  | zero =>
      cases ys with
      | nil => exact ⟨[], q, _, _, rfl, fires_nil h (by simp)⟩
      | cons t ys =>
          have hlater : ¬ Due now (q.memory t).time := by
            intro hdue
            have hrank := rank_le_rank ((due_iff _).mp hdue)
            rw [remaining_perm List.perm_middle, remaining_cons] at hbound
            omega
          obtain ⟨hstop, hfires⟩ := firings_of_later h hlater 0
          exact ⟨[], q, _, _, hstop, hfires⟩
  | succ bound ih =>
      cases ys with
      | nil => exact ⟨[], q, _, _, rfl, fires_nil h (by simp)⟩
      | cons t ys =>
          by_cases hdue : Due now (q.memory t).time
          swap
          · obtain ⟨hstop, hfires⟩ := firings_of_later h hdue (bound + 1)
            exact ⟨[], q, _, _, hstop, hfires⟩
          have hrank := rank_le_rank ((due_iff _).mp hdue)
          obtain ⟨hlive, hnotin, -⟩ := h.active_parts
          rw [remaining_perm List.perm_middle, remaining_cons] at hbound
          have hstep : firings now (bound + 1) (some t) q =
              (firings now bound ys.head? (q.fire t [])).map fun (later, q') =>
                ((t, (q.memory t).time) :: later, q') := by
            rw [← h.next_eq]
            exact (firings.eq_def now (bound + 1) (some t) q).trans (if_neg hdue)
          have hmembers : ∀ u ∈ xs ++ ys, u ∈ q.live ∧ u ≠ t := by
            intro u hu
            refine ⟨h.members.mem_iff.mp ?_, fun hut => hnotin (hut ▸ hu)⟩
            exact List.perm_middle.mem_iff.mpr (List.mem_cons_of_mem _ hu)
          cases hperiodic : (q.memory t).periodic with
          | false =>
              obtain ⟨hnext, hcontent⟩ := h.fire_oneShot hperiodic
              have hadvances' : Advances now (q.fire t []) :=
                hadvances.of_content
                  (fun u hu => (hmembers u (hnext.members.mem_iff.mpr hu)).1)
                  (fun u _ => Or.inl (hcontent u))
              have hremaining :
                  remaining now (q.fire t []) (xs ++ ys) = remaining now q (xs ++ ys) :=
                remaining_congr fun u _ => (content_eq (hcontent u)).1
              obtain ⟨later, q', active, free', hrun, hrest⟩ :=
                ih hnext hadvances' (by omega)
              refine ⟨_, q', active, free', ?_, Fires.oneShot_cons h hperiodic hdue hrest⟩
              rw [List.head?_cons, hstep, hrun]
              rfl
          | true =>
              obtain ⟨⟨front, back, hnext, hperm, hhead, hkept, hnew⟩, hmoved, hcontent⟩ :=
                h.fire_periodic hperiodic
              obtain ⟨hpos, hroom⟩ := hadvances t hlive hperiodic
              have hlater := key_lt_schedule hpos (hroom 0 hdue)
              have hadvances' : Advances now (q.fire t []) := by
                apply hadvances.of_content
                · intro u hu
                  rcases List.mem_cons.mp (hperm.mem_iff.mp (hnext.members.mem_iff.mpr hu)) with
                    rfl | hu
                  · exact hlive
                  · exact (hmembers u hu).1
                · intro u _
                  by_cases hut : u = t
                  · subst hut
                    exact Or.inr hmoved
                  · exact Or.inl (hcontent u hut)
              have hremaining : remaining now (q.fire t []) (front ++ back) ≤ bound := by
                have hothers : remaining now (q.fire t []) (xs ++ ys) =
                    remaining now q (xs ++ ys) :=
                  remaining_congr fun u hu => (content_eq (hcontent u (hmembers u hu).2)).1
                have hadvanced : rank (q.memory t).time < rank ((q.fire t []).memory t).time := by
                  rw [(content_eq hmoved).1]
                  exact rank_lt_rank hlater
                rw [remaining_perm hperm, remaining_cons, hothers]
                omega
              obtain ⟨later, q', active, free', hrun, hrest⟩ := ih hnext hadvances' hremaining
              refine ⟨_, q', active, free', ?_,
                Fires.periodic_cons h hperiodic hlater hdue hperm hkept hnew hrest⟩
              rw [List.head?_cons, hstep, ← hhead, hrun]
              rfl

structure RunFires (now : IperfTime) (q q' : TimerQueue κ) (active active' free' : List ℕ)
    (fired : List (ℕ × IperfTime)) : Prop where
  represents : Represents q' q'.live active' free'
  covered : ∀ t ∈ active, Due now (q.memory t).time → ∃ firing ∈ fired, firing.1 = t
  due : ∀ firing ∈ fired, Due now firing.2
  ordered : (fired.map fun firing => firing.2.key).Pairwise (· ≤ ·)
  oneShot : ∀ t ∈ active, (q.memory t).periodic = false → Due now (q.memory t).time →
    expiriesOf t fired = [(q.memory t).time] ∧ t ∈ free' ∧ t ∉ active'
  periodic : ∀ t ∈ active, (q.memory t).periodic = true →
    t ∈ active' ∧
      expiriesOf t fired = (List.range (expiriesOf t fired).length).map (q.expiry t) ∧
      (q'.memory t).time = q.expiry t (expiriesOf t fired).length
  advance : ∀ t ∈ active, (q.memory t).periodic = true →
    ∀ n ≤ (expiriesOf t fired).length,
      ((q.expiry t n).inUsecs : ℤ) = (q.memory t).time.inUsecs + n * (q.memory t).usecs
  untouched : ∀ t ∈ active, ¬ Due now (q.memory t).time →
    expiriesOf t fired = [] ∧ t ∈ active' ∧ content (q'.memory t) = content (q.memory t)

theorem inUsecs_expiry
    {count : ℕ} (hpos : 1 ≤ (q.memory t).usecs)
    (hroom : ∀ n < count, NoWrap (q.expiry t n) (q.memory t).usecs) (n : ℕ) (hn : n ≤ count) :
    ((q.expiry t n).inUsecs : ℤ) = (q.memory t).time.inUsecs + n * (q.memory t).usecs := by
  induction n with
  | zero =>
      rw [Nat.cast_zero, zero_mul, add_zero]
      rfl
  | succ n ih =>
      rw [expiry_succ, inUsecs_schedule hpos (hroom n hn), ih (Nat.le_of_succ_le hn)]
      push_cast
      ring

theorem Fires.due_of_mem
    {active active' free free' ys : List ℕ} {fired : List (ℕ × IperfTime)}
    (h : Fires now q active free ys fired q' active' free') {time : IperfTime}
    (htime : time ∈ expiriesOf t fired) : Due now time := by
  obtain ⟨firing, hmem, rfl⟩ := List.mem_map.mp htime
  exact (h.due firing (List.mem_filter.mp hmem).1).2

theorem Fires.untouched
    {active active' free free' ys : List ℕ} {fired : List (ℕ × IperfTime)}
    (h : Fires now q active free ys fired q' active' free') (ht : t ∈ active)
    (hlater : ¬ Due now (q.memory t).time) :
    expiriesOf t fired = [] ∧ t ∈ active' ∧ content (q'.memory t) = content (q.memory t) := by
  cases hperiodic : (q.memory t).periodic with
  | true =>
      have hfired := h.periodic t ht hperiodic
      have hnone : expiriesOf t fired = [] := by
        cases hcount : (expiriesOf t fired).length with
        | zero => exact List.length_eq_zero_iff.mp hcount
        | succ n =>
            have hfirst : q.expiry t 0 ∈ expiriesOf t fired := by
              rw [hfired.expiries, hcount]
              exact List.mem_map_of_mem (List.mem_range.mpr (Nat.succ_pos n))
            exact absurd (h.due_of_mem hfirst) hlater
      refine ⟨hnone, hfired.active, ?_⟩
      rw [hfired.moved, hnone]
      rfl
  | false =>
      have hfired := h.oneShot t ht hperiodic
      have hnone : expiriesOf t fired = [] := by
        by_contra hsome
        have htime : (q.memory t).time ∈ expiriesOf t fired := by
          rw [(hfired.fires hsome).1]
          exact List.mem_singleton.mpr rfl
        exact hlater (h.due_of_mem htime)
      exact ⟨hnone, hfired.waits hnone, hfired.same⟩

/-- With callbacks that touch no timers, the loop ends, and it fires what is
due: every due timer, in the order of the expiries. -/
theorem tmrRun_fires_due
    {active free : List ℕ} (h : Represents q q.live active free) (hadvances : Advances now q) :
    ∃ bound fired q' active' free',
      (∀ bound' ≥ bound, firings now bound' q.timers q = some (fired, q')) ∧
        (∀ callbacks ≥ fired.length, q.tmrRun now (List.replicate callbacks []) = q') ∧
        RunFires now q q' active active' free' fired := by
  have hfromStart : Represents q q.live ([] ++ active) free := h
  obtain ⟨fired, q', active', free', hrun, hfires⟩ :=
    firings_spec (remaining now q active) hfromStart hadvances le_rfl
  have hhead : active.head? = q.timers := by
    obtain ⟨last, hsegment⟩ := h.linked
    rcases hsegment.first_cases with ⟨rfl, hnone⟩ | ⟨a, l, rfl, hsome⟩
    · exact hnone.symm
    · exact hsome.symm
  rw [hhead] at hrun
  refine ⟨_, fired, q', active', free', fun bound' hle => firings_mono hrun hle,
    fun callbacks hle => runLoop_of_firings hrun hle, ?_⟩
  constructor
  · exact hfires.represents
  · intro t ht hdue
    obtain ⟨time, htime⟩ := List.exists_mem_of_ne_nil _ (hfires.covered t ht hdue)
    obtain ⟨firing, hmem, rfl⟩ := List.mem_map.mp htime
    obtain ⟨hfired, hfiring⟩ := List.mem_filter.mp hmem
    exact ⟨firing, hfired, by simpa using hfiring⟩
  · exact fun firing hmem => (hfires.due firing hmem).2
  · exact hfires.ordered
  · exact fun t ht honeShot hdue =>
      (hfires.oneShot t ht honeShot).fires (hfires.covered t ht hdue)
  · intro t ht hperiodic
    have hfired := hfires.periodic t ht hperiodic
    have htime := (content_eq hfired.moved).1
    exact ⟨hfired.active, hfired.expiries, htime⟩
  · intro t ht hperiodic
    have hfired := hfires.periodic t ht hperiodic
    obtain ⟨hpos, hroom⟩ := hadvances t (h.members.mem_iff.mp ht) hperiodic
    apply inUsecs_expiry hpos
    intro n hn
    apply hroom n
    apply hfires.due_of_mem (t := t)
    rw [hfired.expiries]
    exact List.mem_map_of_mem (List.mem_range.mpr hn)
  · exact fun t ht hlater => hfires.untouched ht hlater

/-- With room for a period behind `now` no due expiry is moved past its
seconds. -/
theorem noWrap_of_due
    {time : IperfTime} {usecs : ℤ} (hdue : Due now time)
    (hroom : now.secs + (4294967295 + usecs) / 1000000 < 4294967296) : NoWrap time usecs := by
  have husecs := time.usecs_lt
  have hsecs : time.secs ≤ now.secs := by
    rw [due_iff, IperfTime.key, IperfTime.key, Prod.Lex.toLex_le_toLex] at hdue
    rcases hdue with h | h
    · exact h.le
    · exact h.1.le
  unfold NoWrap
  omega

def reportingQueue : TimerQueue Unit :=
  (((initial fun _ => ⟨(), 0, false, IperfTime.ofCounters 0 0, none, none⟩).tmrCreate
    (IperfTime.ofCounters 10 0) () 1000000 true (some 0)).1.tmrCreate
    (IperfTime.ofCounters 10 0) () 30000000 false (some 1)).1

theorem reportingQueue_advances : Advances (IperfTime.ofCounters 12 0) reportingQueue := by
  intro t ht hperiodic
  have hlive : reportingQueue.live = [0, 1] := rfl
  rw [hlive] at ht
  rcases List.mem_cons.mp ht with rfl | ht
  · have husecs : (reportingQueue.memory 0).usecs = 1000000 := rfl
    rw [husecs]
    exact ⟨by norm_num, fun n hdue => noWrap_of_due hdue (by decide)⟩
  · obtain rfl := List.mem_singleton.mp ht
    cases hperiodic

theorem reportingQueue_fires_due :
    ∃ active free, Represents reportingQueue reportingQueue.live active free ∧
      ∃ bound fired q' active' free',
        (∀ bound' ≥ bound, firings (IperfTime.ofCounters 12 0) bound' reportingQueue.timers
          reportingQueue = some (fired, q')) ∧
        (∀ callbacks ≥ fired.length, reportingQueue.tmrRun (IperfTime.ofCounters 12 0)
          (List.replicate callbacks []) = q') ∧
        RunFires (IperfTime.ofCounters 12 0) reportingQueue q' active active' free' fired := by
  have hordered : reportingQueue.InOrder :=
    ((inOrder_initial _).tmrCreate _ _ _ _ _).tmrCreate _ _ _ _ _
  obtain ⟨active, free, h⟩ := hordered
  exact ⟨active, free, h, tmrRun_fires_due h reportingQueue_advances⟩

end TimerQueue

end Iperf3
