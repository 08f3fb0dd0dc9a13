import ScriptHost.Proofs.Guest.Belonging
import ScriptHost.Proofs.Guest.Effects

/-!
# The shared environment under guest code

Guest code cannot change the shared environment by what its names lead to. There are two ways round the proxies:
`pairs` gives the table behind a proxy as the state of an iteration, and tables that are keys are not frozen. A run
that writes to no table that it got so leaves the environment as it was built.

* `Refuses`: an assignment raises a protection violation.
* `Intact`: the environment is as it was built, to everybody who reads it.
* `Visitor.Contained`: the invariant of a run.
* `Visitor.environment_intact`: the main result.
-/

namespace ScriptHost.Guest

/-- An assignment raises a protection violation that names the key, and changes no table. -/
def Refuses (w : World) (v k x : Value) : Prop :=
  ∀ answer, ∃ n w',
    (Access.assign v k x).run (along answer) w = (.error (.raise (.object (.failure n))), w') ∧
    w'.guest.tables = w.guest.tables ∧
    ∀ script, HostError.ofGuest script (w'.guest.failure n) =
      .protection script (Raised.violation k.keyText).message

/-- The shared environment of `g₀` as a run has left it in `g`. -/
structure Intact (g₀ g : Visitor) : Prop where
  tables : ∀ r, g₀.heap.Belongs r → g.heap.table r = g₀.heap.table r
  reads : ∀ path, g.heap.follow (.table g.heap.shared) path =
    g₀.heap.follow (.table g₀.heap.shared) path
  names : ∀ k, lookupShared g.world k = lookupShared g₀.world k
  /-- What a path leads to can be read only. -/
  found : ∀ path r, g.heap.follow (.table g.heap.shared) path = some (.table r) →
    ∀ k x, Refuses g.world (.table r) k x
  /-- So can all that a guest knows, but for what it has got by `pairs` or by a key. -/
  refused : ∀ r, .table r ∈ g.known → g₀.heap.Belongs r → r ∉ g.handed → ¬g₀.heap.Loose r →
    ∀ k x, Refuses g.world (.table r) k x

/-- A visitor in a world around a vault, who knows what is in sight only. -/
structure Visitor.Contained (a : Vault) (h₀ : Heap) (g : Visitor) : Prop where
  confined : Confined a h₀ g.handed g.world
  known : a.Sees g.handed g.known
  tables : ∀ r, h₀.Belongs r → g.heap.table r = h₀.table r

section

variable {a : Vault} {h₀ : Heap} {handed : List Ref} {w : World} {g : Visitor} {p : ℕ} {k x : Value}

/-- A write to a proxy has no effect. -/
theorem Heap.Guards.target?_assign {h : Heap} {m b : Ref} (hg : h.Guards p m b) (k x : Value) :
    (Access.assign (.table p) k x).target? h = none := by
  simp only [Access.target?, hg.assign]

/-- Every assignment to a proxy is refused. -/
theorem Heap.Guards.refuses {m b : Ref} (hg : w.guest.Guards p m b) : Refuses w (.table p) k x := by
  intro answer
  refine ⟨w.guest.failures.size, (Refused k w).2, ?_, rfl, fun script => ?_⟩
  · show (setField (.table p) k x >>= fun _ => pure []) (along answer) w = _
    simp only [setField, Looks.bind_eq, getHeap, hg.assign, callGuest_eq, callAlong_refuseWrite]
    rfl
  · have hfailure : (Refused k w).2.guest.failure w.guest.failures.size =
        .callback tracebackHeading (.raised (.violation k.keyText)) := by
      show ((w.guest.failures.push _)[w.guest.failures.size]?).getD _ = _
      rw [Array.getElem?_push_size]
      rfl
    rw [hfailure]
    rfl

theorem Confined.refuses (hb : a.Built h₀) (hc : Confined a h₀ handed w) (hp : a.proxy p) :
    Refuses w (.table p) k x := by
  obtain ⟨m, b, -, hs⟩ := hc.shuts hb hp
  exact hs.guards.refuses

/-! ## Runs -/

namespace Visitor.Contained

/-- What a visitor can use is in sight. -/
theorem sees (hg : g.Contained a h₀) {vs : List Value} (hvs : ∀ v ∈ vs, g.Knows v) :
    a.Sees g.handed vs := by
  intro v hv
  rcases hvs v hv with hnone | hknown
  · exact Value.within_of_none hnone
  · exact hg.known v hknown

/-- What a move does to the world. -/
theorem keeps (hb : a.Built h₀) (hg : g.Contained a h₀) {m : Move} (hcan : g.Can m)
    (hspares : ∀ r, m.access.target? g.heap = some r → h₀.Belongs r → r ∉ g.handed ∧ ¬h₀.Loose r) :
    Keeps a h₀ g.handed g.world m.access (m.access.run (along m.answer) g.world) :=
  hg.confined.effect hb (hg.sees hcan.operands) (hg.sees hcan.answer) hcan.shared
    fun r hr hbehind => (hspares r hr (hb.belongs_behind hbehind)).1

/-- A write that takes effect changes no table of the environment. -/
theorem respects (hb : a.Built h₀) (hg : g.Contained a h₀) {m : Move} (hcan : g.Can m)
    (hspares : ∀ r, m.access.target? g.heap = some r → h₀.Belongs r → r ∉ g.handed ∧ ¬h₀.Loose r) :
    ∀ r, m.access.target? g.heap = some r → ¬h₀.Belongs r := by
  intro r hr hbelongs
  have hout := (hg.keeps hb hcan hspares).target r hr
  exact (hspares r hr hbelongs).2 (hb.loose_of_outside hbelongs hout)

/-- A move keeps a visitor contained. -/
theorem perform (hb : a.Built h₀) (hg : g.Contained a h₀) {m : Move} (hcan : g.Can m)
    (hspares : ∀ r, m.access.target? g.heap = some r → h₀.Belongs r → r ∉ g.handed ∧ ¬h₀.Loose r) :
    (g.perform m).Contained a h₀ := by
  have hkeeps := hg.keeps hb hcan hspares
  have hrespects := hg.respects hb hcan hspares
  have htables : ∀ r, h₀.Belongs r →
      (m.access.run (along m.answer) g.world).2.guest.table r = h₀.table r := by
    intro r hr
    have hlt := Nat.lt_of_lt_of_le (hb.belongs_lt hr) hg.confined.size
    rw [hkeeps.frame r hlt fun htarget => hrespects r htarget hr]
    exact hg.tables r hr
  unfold Visitor.perform
  -- what a move gives is in sight of what it hands out; a move that fails gives nothing
  rcases hrun : m.access.run (along m.answer) g.world with ⟨o, w⟩
  rw [hrun] at hkeeps htables
  cases o with
  | ok vs =>
    refine ⟨hkeeps.confined.mono (List.subset_append_right _ _), fun v hv => ?_, htables⟩
    rcases List.mem_append.mp hv with hv | hv
    · exact hkeeps.sees vs rfl v hv
    · exact sees_append hg.known v hv
  | error o => exact ⟨hkeeps.confined, hg.known, htables⟩

theorem run (hb : a.Built h₀) (hg : g.Contained a h₀) {moves : List Move} (hable : g.Able moves)
    (hspares : g.Spares h₀ moves) : g.Respects h₀ moves ∧ (g.run moves).Contained a h₀ := by
  induction moves generalizing g with
  | nil => exact ⟨trivial, hg⟩
  | cons m moves ih =>
    obtain ⟨hcan, hable⟩ := hable
    obtain ⟨hmove, hspares⟩ := hspares
    obtain ⟨hrespects, hrest⟩ := ih (hg.perform hb hcan hmove) hable hspares
    exact ⟨⟨hg.respects hb hcan hmove, hrespects⟩, hrest⟩

end Visitor.Contained

/-! ## What a run leaves -/

/-- A run that leaves the environment alone spares what there is to spare. -/
theorem Visitor.Respects.spares {moves : List Move} (h : g.Respects h₀ moves) : g.Spares h₀ moves := by
  induction moves generalizing g with
  | nil => trivial
  | cons m moves ih => exact ⟨fun r hr hbelongs => absurd hbelongs (h.1 r hr), ih h.2⟩

theorem Visitor.Contained.intact {g₀ : Visitor} (hb : a.Built g₀.heap)
    (hstart : ∀ name, g₀.world.objects.get? name = none) (hg : g.Contained a g₀.heap) :
    Intact g₀ g where
  tables := hg.tables
  reads path := by
    rw [hg.confined.shared]
    exact hb.follow_congr hb.root hg.confined.inside path
  names k := by
    rw [lookupShared_eq hg.confined.objects, lookupShared_eq hstart, hg.confined.shared]
    exact hb.index_congr hb.root hg.confined.inside k
  found path r hpath k x := by
    rw [hg.confined.shared, hb.follow_congr hb.root hg.confined.inside] at hpath
    exact hg.confined.refuses hb (hb.proxy_of_follow hb.root hpath)
  refused r hr hbelongs hhanded hloose k x := by
    refine hg.confined.refuses hb ?_
    -- what is known is outside, a proxy, or handed out; the first and the last are excluded
    rcases Value.within_table.mp (hg.known _ hr) with (hout | hp) | ⟨-, hin⟩
    · exact absurd (hb.loose_of_outside hbelongs hout) hloose
    · exact hp
    · exact absurd hin hhanded

/-- A new visitor knows the root. -/
theorem Visitor.Contained.start {heap : Heap} {bindings : List Binding}
    (hb : a.Built (Visitor.start heap bindings).heap) :
    (Visitor.start heap bindings).Contained a (Visitor.start heap bindings).heap where
  confined :=
    { inside := fun _ _ => rfl
      outside := fun r hr => (hb.outside r hr).mono fun _ h => .inl h.isOpen
      size := Nat.le_refl _
      stringMeta := rfl
      shared := rfl
      objects := fun _ => rfl }
  known := sees_cons.mpr ⟨Value.within_table.mpr (.inl (.inr hb.root)), sees_nil⟩
  tables _ _ := rfl

/-- **The shared environment stays as it was built** exactly when no write takes effect on one of its tables that
`pairs` has handed out, or that can be reached from a key. -/
theorem Visitor.environment_intact {heap : Heap} {bindings : List Binding} (hheap : heap.Closed)
    (hbindings : ∀ b ∈ bindings, b.2.Within (· < heap.tables.size)) {moves : List Move}
    (hable : (Visitor.start heap bindings).Able moves) :
    (Visitor.start heap bindings).Spares (Visitor.start heap bindings).heap moves ↔
      (Visitor.start heap bindings).Respects (Visitor.start heap bindings).heap moves ∧
        Intact (Visitor.start heap bindings) ((Visitor.start heap bindings).run moves) := by
  -- what is built is a vault; who respects it stays outside
  obtain ⟨a, -, hb, -, -⟩ := hheap.buildShared hbindings
  constructor
  · intro hspares
    obtain ⟨hrespects, hrun⟩ := (Visitor.Contained.start hb).run hb hable hspares
    exact ⟨hrespects, hrun.intact hb fun _ => rfl⟩
  · rintro ⟨hrespects, -⟩
    exact hrespects.spares

/-- A run that tries to take a name away, and then asks for it. -/
def probe : List Move :=
  [⟨.assign (.table (Visitor.start Heap.start []).heap.shared) (.ofText "util") .nil, []⟩,
    ⟨.name (.ofText "util"), []⟩]

theorem Visitor.environment_intact_probe :
    (Visitor.start Heap.start []).Able probe ∧
      (Visitor.start Heap.start []).Spares (Visitor.start Heap.start []).heap probe ∧
      Intact (Visitor.start Heap.start []) ((Visitor.start Heap.start []).run probe) := by
  have hno : ∀ b ∈ ([] : List Binding), b.2.Within (· < Heap.start.tables.size) := by simp
  obtain ⟨a, -, hb, -, -⟩ := Heap.closed_start.buildShared hno
  have hable : (Visitor.start Heap.start []).Able probe := by
    refine ⟨⟨?_, by simp, fun _ _ h => (by cases h)⟩, ⟨?_, by simp, fun _ _ h => (by cases h)⟩, trivial⟩
    · intro v hv
      simp only [Access.operands, List.mem_cons, List.not_mem_nil, or_false] at hv
      rcases hv with rfl | rfl | rfl
      · exact .inr (List.mem_singleton.mpr rfl)
      · exact .inl rfl
      · exact .inl rfl
    · intro v hv
      rw [List.mem_singleton.mp hv]
      exact .inl rfl
  have hspares : (Visitor.start Heap.start []).Spares (Visitor.start Heap.start []).heap probe := by
    obtain ⟨-, -, m, b, hs⟩ := hb.proxy _ hb.root
    refine ⟨fun r hr => ?_, fun r hr => (by cases hr), trivial⟩
    cases (hs.guards.target?_assign (.ofText "util") .nil).symm.trans hr
  exact ⟨hable, hspares, ((environment_intact Heap.closed_start hno hable).mp hspares).2⟩

/-! ## The way round -/

/-- A write to a table behind a proxy is seen at its proxies, and nowhere else. -/
theorem Vault.Built.index_rawSet {h : Heap} {m b d : ℕ} (hb : a.Built h) (key : Key) (x k : Value)
    (hbehind : a.behind b) (hlt : b < h.tables.size) (hp : a.proxy p) (hs : a.Shuts h p m d) :
    (h.rawSet b key x).index (.table p) k =
      .value (if b = d ∧ k.toKey? = some key then x else h.rawGet d k) := by
  have hne : ∀ q : ℕ, q ≠ b → (h.rawSet b key x).table q = h.table q := fun q hq =>
    Heap.table_modifyTable_of_ne _ hq
  have hpb : p ≠ b := by
    rintro rfl
    exact (hb.proxy p hp).2.1 hbehind
  have hmb : m ≠ b := by
    rintro rfl
    exact hs.secret.2 hbehind
  have hs' := hs.congr (hne p hpb) (hne m hmb)
  -- the proxy and its metatable are others than the table that is written to
  have htable : (h.rawSet b key x).table d =
      if b = d then (h.table d).set key x else h.table d := Heap.table_modifyTable _ hlt
  have hplain : ((h.rawSet b key x).table d).metatable = none := by
    rw [htable]
    split
    · rw [Table.metatable_set]
      exact hb.plain d hs.behind
    · exact hb.plain d hs.behind
  rw [hs'.guards.index hplain]
  unfold Heap.rawGet
  cases hkey : k.toKey? with
  | none => simp
  | some key' =>
    simp only [htable]
    by_cases hbd : b = d
    · rw [if_pos hbd, Table.get_set (hb.indexed d (.inr hs.behind))]
      by_cases hk : key = key'
      · rw [if_pos hk, if_pos ⟨hbd, congrArg some hk.symm⟩]
      · rw [if_neg hk, if_neg fun h => hk (Option.some.inj h.2).symm]
    · rw [if_neg hbd, if_neg fun h => hbd h.1]

theorem base_pairs (v : Value) (context : CallContext) : Library.base .pairs [v] context w =
    (match w.guest.metamethod v "__pairs" with
      | .nil => Guest.results [.native (.base .next), v, .nil]
      | f => pure (.call f [v] [.adapt (.exactly 3)])) context w := rfl

/-- `pairs` hands out the table behind a proxy. -/
theorem Heap.Guards.run_pairs {m b : Ref} {answer : List Value} (hg : w.guest.Guards p m b) :
    (Access.call .pairs [.table p]).run (along answer) w =
      (.ok [.native (.base .next), .table b, .nil], w) := by
  have hmeta : w.guest.metamethod (.table p) "__pairs" = .native (.frozenPairs b) :=
    hg.metamethod "__pairs"
  have happly : (Native.base .pairs).apply [.table p] (along answer) w =
      (.ok (.call (.native (.frozenPairs b)) [.table p] [.adapt (.exactly 3)]), w) := by
    exact (base_pairs (.table p) _).trans (by rw [hmeta]; rfl)
  show ((Native.base .pairs).apply [.table p] >>= Access.results) (along answer) w = _
  rw [Looks.bind_eq, happly]
  show (callGuest (.native (.frozenPairs b)) [.table p] >>= fun vs => pure (takeValues 3 vs))
    (along answer) w = _
  rw [Looks.bind_eq, callGuest_eq, callAlong_frozenPairs]
  rfl

/-- After a move that does not fail its results are known. -/
theorem Visitor.perform_ok {m : Move} {vs : List Value}
    (h : m.access.run (along m.answer) g.world = (.ok vs, w)) :
    (g.perform m).world = w ∧ ∀ v ∈ vs, v ∈ (g.perform m).known := by
  unfold Visitor.perform
  rw [h]
  exact ⟨rfl, fun v hv => List.mem_append_left _ hv⟩

/-- The helpers among what is assembled. -/
theorem Heap.assembleShared_util (h : Heap) :
    ∃ u, (h.assembleShared []).2.rawGet (h.assembleShared []).1 (.ofText "util") = .table u ∧
      (h.assembleShared []).2.rawGet u (.ofText "evil") = .nil := by
  unfold Heap.assembleShared
  extract_lets clock namespaces
  refine ⟨(h.allocTable (namedTable clock)).2.tables.size, ?_, ?_⟩
  · show (Heap.table _ _).getText "util" = _
    rw [Heap.table_allocTable_self, Table.getText_namedTable, List.append_nil, List.reverse_append]
    rfl
  · show (Heap.table _ _).getText "evil" = _
    rw [Heap.table_allocTable, if_neg, Heap.table_allocTable, if_pos rfl, Table.getText_namedTable]
    · rfl
    · exact Nat.ne_of_lt (Nat.lt_of_lt_of_eq (Nat.lt_succ_self _) Heap.size_allocTable.symm)

/-- What a name means in the environment, where no object is shared. -/
theorem run_name {context : CallContext} {v : Value} (hobjects : ∀ name, w.objects.get? name = none)
    (hread : w.guest.index (.table w.guest.shared) k = .value v) :
    (Access.name k).run context w = (.ok [v], w) := by
  have hresolved : resolved w k = v := by
    unfold resolved
    rw [lookupShared_eq hobjects, hread]
  show (Native.resolve.apply [.nil, k] >>= Access.results) context w = _
  rw [Looks.bind_eq, apply_resolve]
  show (Except.ok [resolved w k], w) = _
  rw [hresolved]

/-- A run that takes the table `b` behind a proxy `p` from `pairs`, and sets a field in it. -/
def leak (p b : Ref) : List Move :=
  [⟨.name (.ofText "util"), []⟩, ⟨.call .pairs [.table p], []⟩,
    ⟨.assign (.table b) (.ofText "evil") (.int 1), []⟩]

/-- A leak can be done, and changes the table behind the proxy. -/
theorem Visitor.run_leak {m b : ℕ} (hb : a.Built g.heap)
    (hobjects : ∀ name, g.world.objects.get? name = none)
    (hutil : g.heap.index (.table g.heap.shared) (.ofText "util") = .value (.table p))
    (hs : a.Shuts g.heap p m b) :
    g.Able (leak p b) ∧
      (g.run (leak p b)).heap = g.heap.rawSet b (.str "evil".toUTF8) (.int 1) := by
  have hassign : g.heap.assign (.table b) (.ofText "evil") = .set b (.str "evil".toUTF8) :=
    Heap.assign_plain (hb.plain b hs.behind) _
  -- the proxy is known, then the table behind it, then it is written to
  obtain ⟨hworld, hproxy⟩ := perform_ok (g := g) (m := ⟨.name (.ofText "util"), []⟩)
    (run_name hobjects hutil)
  obtain ⟨hworld', hbehind⟩ := perform_ok (g := g.perform ⟨.name (.ofText "util"), []⟩)
    (m := ⟨.call .pairs [.table p], []⟩) (by rw [hworld]; exact hs.guards.run_pairs)
  obtain ⟨hworld'', -⟩ := perform_ok (m := ⟨.assign (.table b) (.ofText "evil") (.int 1), []⟩)
    (g := (g.perform ⟨.name (.ofText "util"), []⟩).perform ⟨.call .pairs [.table p], []⟩)
    (by rw [hworld']; exact run_assign_set hassign)
  refine ⟨⟨⟨?_, by simp, fun _ _ h => nomatch h⟩, ⟨?_, by simp, ?_⟩,
    ⟨?_, by simp, fun _ _ h => nomatch h⟩, trivial⟩, ?_⟩
  · intro v hv
    cases List.mem_singleton.mp hv
    exact .inl rfl
  · intro v hv
    cases List.mem_singleton.mp hv
    exact .inr (hproxy _ (by simp))
  · rintro f args ⟨⟩
    simp [tableFunctions]
  · intro v hv
    simp only [Access.operands, List.mem_cons, List.not_mem_nil, or_false] at hv
    rcases hv with rfl | rfl | rfl
    · exact .inr (hbehind _ (by simp))
    · exact .inl rfl
    · exact .inl rfl
  · simp only [leak, Visitor.run, List.foldl_cons, List.foldl_nil, Visitor.heap, hworld'']
    rfl

theorem Heap.follow_cons {h : Heap} {r : Ref} {v : Value} (hread : h.index (.table r) k = .value v)
    (path : List Value) : h.follow (.table r) (k :: path) = h.follow v path := by
  simp only [Heap.follow, hread]

/-- A leak is seen by everybody who reads the field. -/
theorem Visitor.follow_leak {m b : ℕ} (hb : a.Built g.heap)
    (hobjects : ∀ name, g.world.objects.get? name = none) (hp : a.proxy p)
    (hutil : g.heap.index (.table g.heap.shared) (.ofText "util") = .value (.table p))
    (hs : a.Shuts g.heap p m b) :
    (g.run (leak p b)).heap.follow (.table (g.run (leak p b)).heap.shared)
      [.ofText "util", .ofText "evil"] = some (.int 1) := by
  obtain ⟨-, hheap⟩ := run_leak hb hobjects hutil hs
  have hlt := hb.belongs_lt (hb.belongs_behind hs.behind)
  have hne : (Value.ofText "util").toKey? ≠ some (.str "evil".toUTF8) := by
    intro heq
    have hbytes := Key.str.inj (Option.some.inj heq)
    exact absurd (String.toByteArray_inj.mp hbytes) (by decide)
  rw [hheap]
  show (g.heap.rawSet b (.str "evil".toUTF8) (.int 1)).follow (.table g.heap.shared) _ = _
  obtain ⟨-, -, mr, br, hsr⟩ := hb.proxy _ hb.root
  have hroot := hb.index_rawSet (.str "evil".toUTF8) (.int 1) (.ofText "util") hs.behind hlt hb.root hsr
  rw [if_neg fun h => hne h.2, ← hsr.guards.index (hb.plain br hsr.behind), hutil] at hroot
  have hfield := hb.index_rawSet (.str "evil".toUTF8) (.int 1) (.ofText "evil") hs.behind hlt hp hs
  rw [if_pos ⟨rfl, rfl⟩] at hfield
  rw [Heap.follow_cons hroot, Heap.follow_cons hfield]
  rfl

/-- Not every run leaves the environment as it was built: a field appears in one of its tables. -/
theorem Visitor.environment_not_intact :
    ∃ p b, (Visitor.start Heap.start []).Able (leak p b) ∧
      (Visitor.start Heap.start []).heap.follow
        (.table (Visitor.start Heap.start []).heap.shared) [.ofText "util", .ofText "evil"] =
          some .nil ∧
      ((Visitor.start Heap.start []).run (leak p b)).heap.follow
        (.table ((Visitor.start Heap.start []).run (leak p b)).heap.shared)
          [.ofText "util", .ofText "evil"] = some (.int 1) ∧
      ¬Intact (Visitor.start Heap.start []) ((Visitor.start Heap.start []).run (leak p b)) := by
  have hno : ∀ b ∈ ([] : List Binding), b.2.Within (· < Heap.start.tables.size) := by simp
  obtain ⟨a, stands, hb, hshows, hroot⟩ := Heap.closed_start.buildShared hno
  obtain ⟨u, hassembled, hnothing⟩ := Heap.start.assembleShared_util
  -- the proxy of the helpers, and the table behind it
  obtain ⟨v, hutil, hv⟩ := hshows.index _ _ hroot (.ofText "util")
  rw [hassembled] at hv
  obtain ⟨p, rfl, hstands⟩ : ∃ p, v = .table p ∧ stands u p := by
    rcases hv with ⟨q, p, hq, rfl, hstands⟩ | ⟨hnot, -⟩
    · cases hq
      exact ⟨p, rfl, hstands⟩
    · exact absurd rfl (hnot u)
  have hp := hshows.proxy u p hstands
  obtain ⟨v', hevil, hv'⟩ := hshows.index u p hstands (.ofText "evil")
  rw [hnothing] at hv'
  obtain rfl : v' = .nil := by
    rcases hv' with ⟨q, p, hq, -, -⟩ | ⟨-, rfl⟩
    · cases hq
    · rfl
  obtain ⟨-, -, m, b, hs⟩ := hb.proxy p hp
  obtain ⟨hable, -⟩ := run_leak (g := Visitor.start Heap.start []) hb (fun _ => rfl) hutil hs
  have hafter := follow_leak (g := Visitor.start Heap.start []) hb (fun _ => rfl) hp hutil hs
  have hbefore := (Heap.follow_cons hutil [.ofText "evil"]).trans (Heap.follow_cons hevil [])
  refine ⟨p, b, hable, hbefore, hafter, fun hintact => ?_⟩
  have hreads := hintact.reads [.ofText "util", .ofText "evil"]
  rw [hafter] at hreads
  cases hreads.trans hbefore

end

end ScriptHost.Guest
