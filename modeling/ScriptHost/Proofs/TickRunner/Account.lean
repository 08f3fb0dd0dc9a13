import ScriptHost.Proofs.TickRunner.History

/-!
# The account of one task

What the history after a task's submission shows of the task, and how that fits what the runner still has of
it. The account of a task changes with what is done to the task itself and with the start of a tick; whatever
else happens leaves it alone (`Account.frame`).
-/

namespace ScriptHost
namespace TickRunner

variable {τ : Type} {line : List ℕ} {flying : Option ℕ} {todo : List ℕ} {r : TickRunner (ℕ × τ)}
  {s id : ℕ} {mode : Mode} {events : List Event}

/-- A task was cancelled before its turn in tick `t`: until then, only tasks had fired in that tick that stand
before it in the line, and the tick was not over. -/
def CalledOff (line : List ℕ) (id t : ℕ) (events : List Event) : Prop :=
  ∃ before e after, events = before ++ e :: after ∧ e.Cancels id ∧ e.tick ≤ t ∧
    (∀ i, Event.fired t i ∈ before → [i, id].Sublist line) ∧ ∀ count, Event.ticked t count ∉ before

/-- A task has had its turn in tick `t`, if it was due: the tick is over or the task no longer waits for
its turn in it. -/
def Passed (todo : List ℕ) (now id t : ℕ) : Prop := t < now ∨ (t = now ∧ id ∉ todo)

/-- The account of a task submitted at tick `s`; the events are those after its submission, and `line` is the
order of turns. -/
structure Account (line : List ℕ) (flying : Option ℕ) (todo : List ℕ) (r : TickRunner (ℕ × τ))
    (s id : ℕ) (mode : Mode) (events : List Event) : Prop where
  increasing : (firings id events).Pairwise (· < ·)
  due : ∀ t ∈ firings id events, mode.IsDue s t
  quiet : events.Pairwise fun e e' => e.Cancels id → e'.firing? id = none
  reached : ∀ t ∈ firings id events, Passed todo r.now id t
  met : ∀ t, mode.IsDue s t → Passed todo r.now id t →
    t ∈ firings id events ∨ CalledOff line id t events
  paced : ∀ e ∈ r.queue, e.id = id → e.interval = mode.interval?
  uncancelled : ∀ e ∈ r.queue, e.id = id → ∀ x ∈ events, ¬ x.Cancels id
  turn : ∀ e ∈ r.queue, e.id = id → flying = some id ∨ id ∈ todo → mode.IsDue s r.now
  next : ∀ e ∈ r.queue, e.id = id → flying ≠ some id → id ∉ todo →
    ∃ n, mode.IsNext s r.now n ∧ e.due = min n lastTick
  gone : (∀ e ∈ r.queue, e.id ≠ id) →
    (∃ x ∈ events, x.Cancels id) ∨ ∀ t, mode.IsDue s t → Passed todo r.now id t

/-! ## Events that do not concern the task -/

theorem CalledOff.append {t : ℕ} (h : CalledOff line id t events) (more : List Event) :
    CalledOff line id t (events ++ more) := by
  obtain ⟨before, e, after, rfl, hcancels, htick, hbefore, hover⟩ := h
  exact ⟨before, e, after ++ more, by simp, hcancels, htick, hbefore, hover⟩

/-- The account stays as it is when the line gets longer. -/
theorem Account.mono {line' : List ℕ} (h : Account line flying todo r s id mode events)
    (hline : line.Sublist line') : Account line' flying todo r s id mode events where
  __ := h
  met t hdue ht := by
    refine (h.met t hdue ht).imp_right ?_
    rintro ⟨before, e, after, hsplit, hcancels, htick, hbefore, hover⟩
    exact ⟨before, e, after, hsplit, hcancels, htick, fun i hi => (hbefore i hi).trans hline, hover⟩

theorem firings_append (id : ℕ) (events more : List Event) :
    firings id (events ++ more) = firings id events ++ firings id more :=
  List.filterMap_append

theorem firings_eq_nil (h : ∀ x ∈ events, x.firing? id = none) : firings id events = [] :=
  List.filterMap_eq_nil_iff.mpr h

/-- Events that are no firings of a task come after whatever may be. -/
theorem quiet_append {more : List Event}
    (h : events.Pairwise fun e e' => e.Cancels id → e'.firing? id = none)
    (hmore : ∀ x ∈ more, x.firing? id = none) :
    (events ++ more).Pairwise fun e e' => e.Cancels id → e'.firing? id = none := by
  refine List.pairwise_append.mpr ⟨h, ?_, fun e _ e' he' _ => hmore e' he'⟩
  exact List.pairwise_of_forall_mem_list fun e _ e' he' _ => hmore e' he'

/-- The account stays as it is while nothing is done to the task and its turn neither comes nor ends. -/
theorem Account.frame (h : Account line flying todo r s id mode events) {flying' : Option ℕ}
    {todo' : List ℕ} {r' : TickRunner (ℕ × τ)} {more : List Event} (hnow : r'.now = r.now)
    (hqueue : ∀ e, e.id = id → (e ∈ r'.queue ↔ e ∈ r.queue))
    (hflying : flying' = some id ↔ flying = some id) (htodo : id ∈ todo' ↔ id ∈ todo)
    (hmore : ∀ x ∈ more, ¬ x.Cancels id ∧ x.firing? id = none) :
    Account line flying' todo' r' s id mode (events ++ more) := by
  -- neither the ticks in which the task has fired nor those that have passed for it are others
  have hfirings : firings id (events ++ more) = firings id events := by
    rw [firings_append, firings_eq_nil fun x hx => (hmore x hx).2, List.append_nil]
  have hpassed : ∀ t, Passed todo' r'.now id t ↔ Passed todo r.now id t := by
    intro t
    unfold Passed
    rw [hnow, htodo]
  constructor
  case increasing =>
    rw [hfirings]
    exact h.increasing
  case due =>
    rw [hfirings]
    exact h.due
  case quiet => exact quiet_append h.quiet fun x hx => (hmore x hx).2
  case reached =>
    intro t ht
    rw [hfirings] at ht
    exact (hpassed t).mpr (h.reached t ht)
  case met =>
    intro t hdue ht
    rw [hfirings]
    exact (h.met t hdue ((hpassed t).mp ht)).imp_right fun hoff => hoff.append more
  case paced =>
    intro e he hid
    exact h.paced e ((hqueue e hid).mp he) hid
  case uncancelled =>
    intro e he hid x hx
    rcases List.mem_append.mp hx with hx | hx
    · exact h.uncancelled e ((hqueue e hid).mp he) hid x hx
    · exact (hmore x hx).1
  case turn =>
    intro e he hid hturn
    rw [hnow]
    exact h.turn e ((hqueue e hid).mp he) hid (hturn.imp hflying.mp htodo.mp)
  case next =>
    intro e he hid hnot hno
    rw [hnow]
    exact h.next e ((hqueue e hid).mp he) hid (fun hf => hnot (hflying.mpr hf))
      fun ht => hno (htodo.mpr ht)
  case gone =>
    intro hgone
    rcases h.gone fun e he hid => hgone e ((hqueue e hid).mpr he) hid with ⟨x, hx, hc⟩ | hall
    · exact .inl ⟨x, List.mem_append_left more hx, hc⟩
    · exact .inr fun t hdue => (hpassed t).mpr (hall t hdue)

/-! ## What is done to the task -/

theorem Passed.le {now t : ℕ} (h : Passed todo now id t) : t ≤ now := by
  rcases h with h | ⟨h, _⟩
  · exact Nat.le_of_lt h
  · exact Nat.le_of_eq h

/-- The account is opened by the task's submission. -/
theorem Account.submit {task : τ} {lane : Lane} (hstanding : Standing flying todo r)
    (hnow : r.now < lastTick) :
    Account line flying todo (r.submit (r.issued + 1, task) lane mode).2 r.now (r.issued + 1) mode [] := by
  have hnew : ¬ (flying = some (r.issued + 1) ∨ r.issued + 1 ∈ todo) := fun hold =>
    absurd (hold.elim (hstanding.launched _) (hstanding.issued _)) (Nat.not_succ_le_self _)
  -- its number is new, so the entry is the one that was just made
  have hentry : ∀ e ∈ (r.submit (r.issued + 1, task) lane mode).2.queue, e.id = r.issued + 1 →
      e = ⟨r.issued + 1, lane, mode.firstDue r.now, mode.interval?, some (r.issued + 1, task)⟩ := by
    intro e he hid
    refine (mem_submit.mp he).resolve_left fun he => ?_
    have hle := (hstanding.numbered e he).2
    omega
  constructor
  case increasing => exact List.Pairwise.nil
  case due => exact fun t ht => nomatch ht
  case quiet => exact List.Pairwise.nil
  case reached => exact fun t ht => nomatch ht
  case met =>
    intro t hdue hpassed
    exact absurd hpassed.le (Nat.not_le_of_lt hdue.after)
  case paced =>
    intro e he hid
    rw [hentry e he hid]
  case uncancelled => exact fun _ _ _ x hx => nomatch hx
  case turn => exact fun _ _ _ hturn => absurd hturn hnew
  case next =>
    intro e he hid _ _
    rw [hentry e he hid]
    exact mode.exists_isNext_firstDue hnow
  case gone =>
    intro hgone
    exact absurd rfl (hgone _ (mem_submit.mpr (.inr rfl)))

/-- The task is cancelled, whether it is still there or not. -/
theorem Account.cancel (h : Account line flying todo r s id mode events) (found : Bool) :
    Account line flying todo (r.cancel ⟨id⟩).2 s id mode (events ++ [.cancelled r.now id found]) := by
  -- no entry is left, so what is said of entries holds of none
  have hcancel : ∀ e ∈ (r.cancel ⟨id⟩).2.queue, e.id ≠ id := fun e he => (mem_cancel.mp he).2
  have hmore : ∀ x ∈ [Event.cancelled r.now id found], x.firing? id = none := by
    intro x hx
    rw [List.mem_singleton.mp hx]
    rfl
  have hfirings : firings id (events ++ [.cancelled r.now id found]) = firings id events := by
    rw [firings_append, firings_eq_nil hmore, List.append_nil]
  constructor
  case increasing =>
    rw [hfirings]
    exact h.increasing
  case due =>
    rw [hfirings]
    exact h.due
  case quiet => exact quiet_append h.quiet hmore
  case reached =>
    rw [hfirings]
    exact h.reached
  case met =>
    intro t hdue ht
    rw [hfirings]
    exact (h.met t hdue ht).imp_right fun hoff => hoff.append _
  case paced => exact fun e he hid => absurd hid (hcancel e he)
  case uncancelled => exact fun e he hid => absurd hid (hcancel e he)
  case turn => exact fun e he hid => absurd hid (hcancel e he)
  case next => exact fun e he hid => absurd hid (hcancel e he)
  case gone =>
    exact fun _ => .inl ⟨_, List.mem_append_right events (List.mem_singleton.mpr rfl), rfl⟩

/-- Tasks are called off that were cancelled when, in tick `t`, only tasks had fired that stand before them. -/
theorem calledOff_of_cancels {t : ℕ} {x : Event} (hx : x ∈ events) (hc : x.Cancels id)
    (htick : x.tick ≤ t) (hbefore : ∀ i, Event.fired t i ∈ events → [i, id].Sublist line)
    (hover : ∀ count, Event.ticked t count ∉ events) : CalledOff line id t events := by
  obtain ⟨before, after, rfl⟩ := List.append_of_mem hx
  exact ⟨before, x, after, rfl, hc, htick, fun i hi => hbefore i (List.mem_append_left _ hi),
    fun count hmem => hover count (List.mem_append_left _ hmem)⟩

/-- The next tick begins. What waits and does not get a turn is not due; what is due and does not get a
turn was cancelled. -/
theorem Account.dawn (h : Account line none [] r s id mode events) (hnow : r.now + 1 < lastTick)
    (hpast : ∀ x ∈ events, x.tick ≤ r.now) :
    Account line none r.dawn.dueIds r.dawn s id mode events := by
  have hover : ∀ count, Event.ticked (r.now + 1) count ∉ events := fun count hmem =>
    absurd (hpast _ hmem) (Nat.not_succ_le_self _)
  have hbefore : ∀ i, Event.fired (r.now + 1) i ∈ events → [i, id].Sublist line := fun i hi =>
    absurd (hpast _ hi) (Nat.not_succ_le_self _)
  -- no task is in flight and none is left from the tick before: whatever waits is due later
  have hnext := fun e he hid => h.next e he hid (fun hf => nomatch hf) (fun ht => nomatch ht)
  constructor
  case increasing => exact h.increasing
  case due => exact h.due
  case quiet => exact h.quiet
  case reached => exact fun t ht => .inl (Nat.lt_succ_of_le (h.reached t ht).le)
  case met =>
    intro t hdue hpassed
    rcases hpassed with hlt | ⟨rfl, hno⟩
    · refine h.met t hdue ?_
      rcases Nat.lt_or_eq_of_le (Nat.le_of_lt_succ hlt) with hlt | heq
      · exact .inl hlt
      · exact .inr ⟨heq, fun ht => nomatch ht⟩
    · right
      -- the tick that begins is due, and the task has no turn in it: it is there no more
      by_cases hthere : ∃ e ∈ r.queue, e.id = id
      · obtain ⟨e, he, hid⟩ := hthere
        obtain ⟨n, hn, hcap⟩ := hnext e he hid
        refine absurd ((mem_dueIds (r := r.dawn)).mpr ⟨e, he, hid, ?_⟩) hno
        rw [hcap]
        exact Nat.le_trans (Nat.min_le_left _ _) (hn.le_succ hdue)
      · -- so it was cancelled, and that before this tick; or all its ticks had passed
        rcases h.gone fun e he hid => hthere ⟨e, he, hid⟩ with ⟨x, hx, hc⟩ | hall
        · exact calledOff_of_cancels hx hc (Nat.le_succ_of_le (hpast x hx)) hbefore hover
        · exact absurd (hall _ hdue).le (Nat.not_succ_le_self _)
  case paced => exact h.paced
  case uncancelled => exact h.uncancelled
  case turn =>
    intro e he hid hturn
    rcases hturn with hf | hturn
    · cases hf
    · obtain ⟨e', he', hid', hdue⟩ := mem_dueIds.mp hturn
      obtain ⟨n, hn, hcap⟩ := hnext e' he' hid'
      have hle : min n lastTick ≤ r.now + 1 := hcap ▸ hdue
      have heq : n = r.now + 1 := hn.eq_succ (by omega)
      exact (show r.dawn.now = n from heq.symm) ▸ hn.1
  case next =>
    intro e he hid _ hno
    obtain ⟨n, hn, hcap⟩ := hnext e he hid
    refine ⟨n, hn.advance fun hdue =>
      hno ((mem_dueIds (r := r.dawn)).mpr ⟨e, he, hid, ?_⟩), hcap⟩
    rw [hcap]
    exact Nat.le_trans (Nat.min_le_left _ _) (hn.le_succ hdue)
  case gone =>
    intro hgone
    exact (h.gone hgone).imp_right fun hall t hdue => .inl (Nat.lt_succ_of_le (hall t hdue).le)

/-- The task's turn comes and it is not there; so far, only tasks have fired that stand before it. -/
theorem Account.skip (h : Account line none (id :: todo) r s id mode events)
    (hgone : ∀ e ∈ r.queue, e.id ≠ id) (hpast : ∀ x ∈ events, x.tick ≤ r.now)
    (hbefore : ∀ i, Event.fired r.now i ∈ events → [i, id].Sublist line)
    (hopen : ∀ count, Event.ticked r.now count ∉ events) :
    Account line none todo r s id mode events := by
  have hearlier : ∀ t, Passed (id :: todo) r.now id t → t < r.now := fun t ht =>
    ht.resolve_right fun ⟨_, hno⟩ => hno List.mem_cons_self
  constructor
  case increasing => exact h.increasing
  case due => exact h.due
  case quiet => exact h.quiet
  case reached => exact fun t ht => .inl (hearlier t (h.reached t ht))
  case met =>
    intro t hdue hpassed
    rcases hpassed with hlt | ⟨rfl, _⟩
    · exact h.met t hdue (.inl hlt)
    · rcases h.gone hgone with ⟨x, hx, hc⟩ | hall
      · -- the tick is due, and the task has been cancelled; else all its ticks were over
        exact .inr (calledOff_of_cancels hx hc (hpast x hx) hbefore hopen)
      · exact absurd (hearlier _ (hall _ hdue)) (Nat.lt_irrefl _)
  case paced => exact h.paced
  case uncancelled => exact h.uncancelled
  case turn => exact fun e he hid => absurd hid (hgone e he)
  case next => exact fun e he hid => absurd hid (hgone e he)
  case gone =>
    intro _
    exact (h.gone hgone).imp_right fun hall t hdue => .inl (hearlier t (hall t hdue))

/-- The task's turn comes and it fires. -/
theorem Account.take (h : Account line none (id :: todo) r s id mode events)
    (hthere : ∃ e ∈ r.queue, e.id = id) (hno : id ∉ todo) :
    Account line (some id) todo (r.take id) s id mode (events ++ [.fired r.now id]) := by
  obtain ⟨e₀, he₀, hid₀⟩ := hthere
  have hdue₀ : mode.IsDue s r.now := h.turn e₀ he₀ hid₀ (.inr List.mem_cons_self)
  -- its turn has not come in this tick yet, so the ticks that it has met are earlier ones
  have hearlier : ∀ t, Passed (id :: todo) r.now id t → t < r.now := fun t ht =>
    ht.resolve_right fun ⟨_, hno⟩ => hno List.mem_cons_self
  have hfirings : firings id (events ++ [.fired r.now id]) = firings id events ++ [r.now] := by
    rw [firings_append]
    simp [firings, Event.firing?]
  have hentry : ∀ e ∈ (r.take id).queue, e.id = id →
      ∃ e' ∈ r.queue, e'.id = id ∧ e = { e' with task := none } := fun e he hid =>
    (mem_take.mp he).resolve_left fun hother => hother.2 hid
  constructor
  case increasing =>
    rw [hfirings]
    refine List.pairwise_append.mpr ⟨h.increasing, List.pairwise_singleton _ _, fun t ht t' ht' => ?_⟩
    rw [List.mem_singleton.mp ht']
    exact hearlier t (h.reached t ht)
  case due =>
    intro t ht
    rw [hfirings, List.mem_append, List.mem_singleton] at ht
    rcases ht with ht | rfl
    · exact h.due t ht
    · exact hdue₀
  case quiet =>
    refine List.pairwise_append.mpr ⟨h.quiet, List.pairwise_singleton _ _, fun e he e' _ hc => ?_⟩
    -- the entry would not be there if the task had been cancelled
    exact absurd hc (h.uncancelled e₀ he₀ hid₀ e he)
  case reached =>
    intro t ht
    rw [hfirings, List.mem_append, List.mem_singleton] at ht
    rcases ht with ht | rfl
    · exact .inl (hearlier t (h.reached t ht))
    · exact .inr ⟨rfl, hno⟩
  case met =>
    intro t hdue hpassed
    rw [hfirings, List.mem_append, List.mem_singleton]
    rcases hpassed with hlt | ⟨rfl, _⟩
    · exact (h.met t hdue (.inl hlt)).imp .inl fun hoff => hoff.append _
    · exact .inl (.inr rfl)
  case paced =>
    intro e he hid
    obtain ⟨e', he', hid', rfl⟩ := hentry e he hid
    exact h.paced e' he' hid'
  case uncancelled =>
    intro _ _ _ x hx
    rcases List.mem_append.mp hx with hx | hx
    · exact h.uncancelled e₀ he₀ hid₀ x hx
    · rw [List.mem_singleton.mp hx]
      exact fun hc => hc
  case turn => exact fun _ _ _ _ => hdue₀
  case next => exact fun _ _ _ hnot _ => absurd rfl hnot
  case gone =>
    intro hgone
    have hmem : { e₀ with task := none } ∈ (r.take id).queue :=
      mem_take.mpr (.inr ⟨e₀, he₀, hid₀, rfl⟩)
    exact (hgone _ hmem hid₀).elim

/-- The task's firing ends. -/
theorem Account.settle (h : Account line (some id) todo r s id mode events) {task : ℕ × τ}
    (hno : id ∉ todo) :
    Account line none todo (r.settle r.now id task) s id mode events := by
  have hentry : ∀ e ∈ (r.settle r.now id task).queue, e.id = id →
      ∃ e' ∈ r.queue, e'.id = id ∧ ∃ n, e'.interval = some n ∧
        e = { e' with due := ticksLater r.now n, task := some task } := fun e he hid =>
    (mem_settle.mp he).resolve_left fun hother => hother.2 hid
  constructor
  case increasing => exact h.increasing
  case due => exact h.due
  case quiet => exact h.quiet
  case reached => exact h.reached
  case met => exact h.met
  case paced =>
    intro e he hid
    obtain ⟨e', he', hid', n, _, rfl⟩ := hentry e he hid
    exact h.paced e' he' hid'
  case uncancelled =>
    intro e he hid
    obtain ⟨e', he', hid', n, _, rfl⟩ := hentry e he hid
    exact h.uncancelled e' he' hid'
  case turn =>
    intro e he hid hturn
    exact absurd hturn fun hturn => hturn.elim (fun hf => nomatch hf) hno
  case next =>
    intro e he hid _ _
    obtain ⟨e', he', hid', n, hn, rfl⟩ := hentry e he hid
    have hdue := h.turn e' he' hid' (.inl rfl)
    exact ⟨r.now + n, hdue.isNext_add (h.paced e' he' hid' ▸ hn), rfl⟩
  case gone =>
    intro hgone
    by_cases hthere : ∃ e ∈ r.queue, e.id = id
    · -- its entry has left the queue, so the task does not repeat
      obtain ⟨e, he, hid⟩ := hthere
      cases hn : e.interval with
      | some n =>
        have hmem : { e with due := ticksLater r.now n, task := some task } ∈
            (r.settle r.now id task).queue := mem_settle.mpr (.inr ⟨e, he, hid, n, hn, rfl⟩)
        exact (hgone _ hmem hid).elim
      | none =>
        have hdue := h.turn e he hid (.inl rfl)
        refine .inr fun t ht => .inr ⟨hdue.unique ?_ ht, hno⟩
        rw [← h.paced e he hid, hn]
    · exact h.gone fun e he hid => hthere ⟨e, he, hid⟩

end TickRunner
end ScriptHost
