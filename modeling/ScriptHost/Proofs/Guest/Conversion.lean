import Mathlib.Data.Finset.Basic
import ScriptHost.Guest.Render

/-!
# What a conversion to JSON costs

Guest code decides how its tables are iterated and how long they are, and may be called for each entry, so that only
the limits keep a conversion finite. A second converter does the same as the first and keeps account of it
(`Progress`): it marks and unmarks the tables that it is in, as the other has them around it.

* `convert_follows`: the two converters give the same, in the same world.
* `convertTracked_accounts`: what the account of one value adds to any account before it.
* `conversion_is_bounded`: what the account of a whole conversion comes to.
-/

namespace ScriptHost.Guest

/-! ## The account -/

/-- What a conversion is in, and what it has done. -/
structure Progress where
  /-- The tables that are being converted. -/
  path : Finset Ref := ∅
  /-- The number of values that were to be converted. -/
  visits : ℕ := 0
  /-- How often the iteration over a table was asked for an entry, for each table that was read. -/
  asked : List ℕ := []
  /-- The tables that were expanded, with their depths. -/
  expanded : List (Ref × ℕ) := []
  /-- The lengths of the arrays that were made. -/
  arrays : List ℕ := []
  /-- The writes into arrays: the length of the array, and the place. -/
  writes : List (ℕ × ℤ) := []

namespace Progress

/-- One more value is to be converted. -/
def visit (p : Progress) : Progress := { p with visits := p.visits + 1 }

/-- Iterations were asked so often. -/
def ask (p : Progress) (asked : List ℕ) : Progress := { p with asked := asked ++ p.asked }

/-- A table is expanded, and marked. -/
def enter (p : Progress) (r : Ref) (depth : ℕ) : Progress :=
  { p with expanded := (r, depth) :: p.expanded, path := insert r p.path }

/-- A table is marked no more. -/
def leave (p : Progress) (r : Ref) : Progress := { p with path := p.path.erase r }

/-- An array is made. -/
def allocate (p : Progress) (size : ℕ) : Progress := { p with arrays := size :: p.arrays }

/-- An item is written. -/
def write (p : Progress) (size : ℕ) (place : ℤ) : Progress := { p with writes := (size, place) :: p.writes }

end Progress

/-- Conversion with an account of it. -/
abbrev TrackM := StateT Progress WorldM

/-- `iterate`, with the number of times that the iteration was asked. -/
def iterateCounted (next state : Value) (found : List (Value × Value)) :
    ℕ → Value → WorldM (ℕ × Except GuestError (List (Value × Value)))
  | 0, _ => pure (0, .ok found.reverse)
  | left + 1, k => do
    match ← callGuestFunction next [state, k] with
    | .error e => pure (1, .error e)
    | .ok vs =>
      let k := vs.headD .nil
      if k.isNil then pure (1, .ok found.reverse)
      else do
        let (asked, result) ← iterateCounted next state ((k, (vs.drop 1).headD .nil) :: found) left k
        pure (asked + 1, result)

/-- `visibleEntries`, on account. -/
def readTable (r : Ref) : TrackM (Except GuestError (List (Value × Value) × ℕ)) := do
  match ← (callGuestFunction (.native (.base .pairs)) [.table r] : WorldM _) with
  | .error e => pure (.error e)
  | .ok vs =>
    match (vs.headD .nil).takeFunction with
    | .error e => pure (.error e)
    | .ok next =>
      let (asked, result) ←
        (iterateCounted next ((vs.drop 1).headD .nil) [] maxEntries ((vs.drop 2).headD .nil) : WorldM _)
      modify (·.ask [asked])
      match result with
      | .error e => pure (.error e)
      | .ok entries =>
        match ← (runNative (lengthOf (.table r)) : WorldM _) with
        | .error e => pure (.error e)
        | .ok n => pure (.ok (entries, n.toInt.toNat))

/-- Convert the entries of a sequence, and write each to its place as it comes. -/
def fillArray (convert : Value → TrackM Json) :
    Array Json → List (Value × Value) → TrackM (Array Json)
  | items, [] => pure items
  | items, (.int i, v) :: rest => do
    let j ← convert v
    modify (·.write items.size (i.toInt - 1))
    fillArray convert (items.set! (i.toInt - 1).toNat j) rest
  | items, _ :: rest => fillArray convert items rest

/-- Convert entries, and put each under its name as it comes. -/
def gatherMembers (convert : Value → TrackM Json) :
    Std.TreeMap String Json → List (Value × Value) → TrackM (Std.TreeMap String Json)
  | members, [] => pure members
  | members, (k, v) :: rest => do
    let j ← convert v
    gatherMembers convert (members.insert k.keyText j) rest

/-- Convert what was read of a table. -/
def convertTable (convert : Value → TrackM Json) (entries : List (Value × Value)) (size : ℕ) :
    TrackM Json := do
  if isSequence entries size then
    modify (·.allocate size)
    let items ← fillArray convert (Array.replicate size Json.null) entries
    pure (.arr items.toList)
  else
    let members ← gatherMembers convert ∅ entries
    pure (.obj members.toList)

/-- `convert`, on account: a table is marked while it is being converted. -/
def convertTracked (depth : ℕ) (v : Value) : TrackM Json := do
  modify Progress.visit
  match v with
  | .table r =>
    let p ← get
    if r ∈ p.path then pure (.str "<cycle>")
    else if _ : maxNesting ≤ depth ∨ maxTables ≤ p.expanded.length then pure (.str "<table>")
    else
      match ← readTable r with
      | .error _ => pure (.str "<table>")
      | .ok (entries, size) =>
        modify (·.enter r depth)
        let j ← convertTable (convertTracked (depth + 1)) entries size
        modify (·.leave r)
        pure j
  | v => pure (scalarJson v)
termination_by maxNesting - depth
decreasing_by omega

/-! ## Runs -/

section

variable {σ β δ : Type}

theorem stateT_bind (x : StateT σ WorldM β) (f : β → StateT σ WorldM δ) (s : σ) (w : World) :
    (x >>= f) s w = f (x s w).1.1 (x s w).1.2 (x s w).2 := rfl

theorem worldM_bind (x : WorldM β) (f : β → WorldM δ) (w : World) :
    (x >>= f) w = f (x w).1 (x w).2 := rfl

theorem stateT_lift (x : WorldM β) (s : σ) (w : World) :
    (liftM x : StateT σ WorldM β) s w = (((x w).1, s), (x w).2) := rfl

theorem stateT_modify (f : σ → σ) (s : σ) (w : World) :
    (modify f : StateT σ WorldM PUnit) s w = ((⟨⟩, f s), w) := rfl

theorem stateT_get (s : σ) (w : World) : (get : StateT σ WorldM σ) s w = ((s, s), w) := rfl

end

theorem convertTracked_scalar {v : Value} (hv : ∀ r, v ≠ .table r) (depth : ℕ) (p : Progress) (w : World) :
    convertTracked depth v p w = ((scalarJson v, p.visit), w) := by
  rw [convertTracked]
  · rfl
  · exact hv

theorem convertTracked_cycle {r : Ref} {p : Progress} (hr : r ∈ p.path) (depth : ℕ) (w : World) :
    convertTracked depth (.table r) p w = ((.str "<cycle>", p.visit), w) := by
  rw [convertTracked, stateT_bind, stateT_modify]
  dsimp only
  rw [stateT_bind, stateT_get]
  dsimp only
  rw [if_pos (show r ∈ p.visit.path from hr)]
  rfl

theorem convertTracked_cut {r : Ref} {p : Progress} (hr : r ∉ p.path) {depth : ℕ}
    (hcut : maxNesting ≤ depth ∨ maxTables ≤ p.expanded.length) (w : World) :
    convertTracked depth (.table r) p w = ((.str "<table>", p.visit), w) := by
  rw [convertTracked, stateT_bind, stateT_modify]
  dsimp only
  rw [stateT_bind, stateT_get]
  dsimp only
  rw [if_neg (show r ∉ p.visit.path from hr),
    dif_pos (show maxNesting ≤ depth ∨ maxTables ≤ p.visit.expanded.length from hcut)]
  rfl

/-- A table that is not cut off is read, and what was read is converted while the table is marked. -/
theorem convertTracked_table {r : Ref} {p : Progress} (hr : r ∉ p.path) {depth : ℕ}
    (hcut : ¬ (maxNesting ≤ depth ∨ maxTables ≤ p.expanded.length)) {w w' : World} {p' : Progress}
    {result : Except GuestError (List (Value × Value) × ℕ)} :
    readTable r p.visit w = ((result, p'), w') → convertTracked depth (.table r) p w =
      match result with
      | .error _ => ((.str "<table>", p'), w')
      | .ok (entries, size) =>
        match convertTable (convertTracked (depth + 1)) entries size (p'.enter r depth) w' with
        | ((j, p), w) => ((j, p.leave r), w) := by
  intro hread
  rw [convertTracked, stateT_bind, stateT_modify]
  dsimp only
  rw [stateT_bind, stateT_get]
  dsimp only
  rw [if_neg (show r ∉ p.visit.path from hr),
    dif_neg (show ¬ (maxNesting ≤ depth ∨ maxTables ≤ p.visit.expanded.length) from hcut), stateT_bind, hread]
  cases result <;> rfl

/-! ## Reading -/

theorem length_of_ok_reverse {found entries : List (Value × Value)} (left : ℕ)
    (hentries : (Except.ok found.reverse : Except GuestError _) = .ok entries) :
    entries.length ≤ found.length + left := by
  obtain rfl := Except.ok.inj hentries
  rw [List.length_reverse]
  omega

/-- The iteration is asked at most as often as there is room, and comes to the same. -/
theorem iterateCounted_spec (next state : Value) (found : List (Value × Value)) (left : ℕ) (k : Value)
    (w : World) :
    ∃ asked result w', iterateCounted next state found left k w = ((asked, result), w') ∧
      iterate next state found left k w = (result, w') ∧ asked ≤ left ∧
      ∀ entries, result = .ok entries → entries.length ≤ found.length + left := by
  induction left generalizing found k w with
  | zero => exact ⟨0, _, w, rfl, rfl, Nat.le_refl 0, fun _ => length_of_ok_reverse 0⟩
  | succ left ih =>
    rw [iterate, iterateCounted, worldM_bind, worldM_bind]
    rcases callGuestFunction next [state, k] w with ⟨answer, w'⟩
    cases answer with
    | error e => exact ⟨1, _, w', rfl, rfl, Nat.le_add_left 1 left, fun entries hentries => nomatch hentries⟩
    | ok vs =>
      dsimp only
      cases hnil : (vs.headD .nil).isNil with
      | true => exact ⟨1, _, w', rfl, rfl, Nat.le_add_left 1 left, fun _ => length_of_ok_reverse _⟩
      | false =>
        obtain ⟨asked, result, w'', hcounted, hsame, hasked, hlength⟩ :=
          ih ((vs.headD .nil, (vs.drop 1).headD .nil) :: found) (vs.headD .nil) w'
        refine ⟨asked + 1, result, w'', ?_, hsame, Nat.succ_le_succ hasked, fun entries hentries => ?_⟩
        · simp only [Bool.false_eq_true, if_false]
          rw [worldM_bind, hcounted]
          rfl
        · have hle := hlength entries hentries
          rw [List.length_cons] at hle
          omega

/-- A table is read as ever; at most one iteration is put to account, and it was not asked too often. -/
theorem readTable_spec (r : Ref) (p : Progress) (w : World) :
    ∃ asked result w', readTable r p w = ((result, p.ask asked), w') ∧
      visibleEntries (.table r) w = (result, w') ∧ (∀ n ∈ asked, n ≤ maxEntries) ∧ asked.length ≤ 1 ∧
      ∀ entries size, result = .ok (entries, size) → entries.length ≤ maxEntries := by
  rw [readTable, visibleEntries, stateT_bind, worldM_bind, stateT_lift]
  rcases callGuestFunction (.native (.base .pairs)) [.table r] w with ⟨answer, w₁⟩
  cases answer with
  | error e =>
    exact ⟨[], _, w₁, rfl, rfl, List.forall_mem_nil _, Nat.zero_le 1, fun _ _ heq => nomatch heq⟩
  | ok vs =>
    dsimp only
    cases (vs.headD .nil).takeFunction with
    | error e =>
      exact ⟨[], _, w₁, rfl, rfl, List.forall_mem_nil _, Nat.zero_le 1, fun _ _ heq => nomatch heq⟩
    | ok next =>
      -- only when `pairs` gives a function the table is iterated over
      obtain ⟨asked, result, w₂, hcounted, hsame, hasked, hlength⟩ :=
        iterateCounted_spec next ((vs.drop 1).headD .nil) [] maxEntries ((vs.drop 2).headD .nil) w₁
      have hone : ∀ n ∈ [asked], n ≤ maxEntries := List.forall_mem_singleton.mpr hasked
      dsimp only
      rw [stateT_bind, stateT_lift, worldM_bind, hsame, hcounted]
      cases result with
      | error e => exact ⟨[asked], _, w₂, rfl, rfl, hone, Nat.le_refl 1, fun _ _ heq => nomatch heq⟩
      | ok entries =>
        dsimp only
        rw [stateT_bind, stateT_modify, worldM_bind]
        dsimp only
        rw [stateT_bind, stateT_lift]
        rcases runNative (lengthOf (.table r)) w₂ with ⟨size, w₃⟩
        cases size with
        | error e => exact ⟨[asked], _, w₃, rfl, rfl, hone, Nat.le_refl 1, fun _ _ heq => nomatch heq⟩
        | ok n =>
          refine ⟨[asked], _, w₃, rfl, rfl, hone, Nat.le_refl 1, fun found size heq => ?_⟩
          obtain rfl : entries = found := congrArg Prod.fst (Except.ok.inj heq)
          simpa using hlength entries rfl

/-! ## The same conversion -/

/-- A converter on account does what another does that is told the tables around it, and leaves the marks as it found
them. -/
def Follows (path : List Ref) (convert : Value → RenderM Json) (track : Value → TrackM Json) : Prop :=
  ∀ v p w, (∀ r, r ∈ p.path ↔ r ∈ path) → ∃ j p' w',
    track v p w = ((j, p'), w') ∧ p'.path = p.path ∧
      convert v p.expanded.length w = ((j, p'.expanded.length), w')

variable {path : List Ref} {convert : Value → RenderM Json} {track : Value → TrackM Json}

/-- In a sequence every key is the number of a place. -/
theorem exists_place {size : ℕ} {k : Value} (hplace : (sequencePlace? size k).isSome = true) :
    ∃ i : Int64, k = .int i ∧ 1 ≤ i.toInt ∧ i.toInt ≤ size ∧
      sequencePlace? size k = some (i.toInt - 1).toNat := by
  cases k with
  | int i =>
    rw [sequencePlace?] at hplace ⊢
    split at hplace
    · rename_i hrange
      rw [Bool.and_eq_true, decide_eq_true_eq, decide_eq_true_eq] at hrange
      refine ⟨i, rfl, hrange.1, hrange.2, ?_⟩
      rw [if_pos (by simp [hrange])]
      congr 1
      omega
    · cases hplace
  | _ => cases hplace

/-- To fill an array as its items come is to fill it when they all have come. -/
theorem Follows.fillArray (hfollows : Follows path convert track) (size : ℕ)
    (entries : List (Value × Value)) (hplaces : ∀ e ∈ entries, (sequencePlace? size e.1).isSome = true)
    (items : Array Json) (p : Progress) (w : World) (hpath : ∀ r, r ∈ p.path ↔ r ∈ path) :
    ∃ filled p' w' converted, Guest.fillArray track items entries p w = ((filled, p'), w') ∧
      p'.path = p.path ∧
      convertEntries convert entries p.expanded.length w = ((converted, p'.expanded.length), w') ∧
      filled = converted.foldl (fun items (k, j) =>
        match sequencePlace? size k with
        | some i => items.set! i j
        | none => items) items := by
  induction entries generalizing items p w with
  | nil => exact ⟨items, p, w, [], rfl, rfl, rfl, rfl⟩
  | cons e rest ih =>
    obtain ⟨hplace, hrestPlaces⟩ := List.forall_mem_cons.mp hplaces
    obtain ⟨k, v⟩ := e
    obtain ⟨i, rfl, -, -, hi⟩ : ∃ i : Int64, k = .int i ∧ _ := exists_place hplace
    obtain ⟨j, p₁, w₁, htrack, hpath₁, hconvert⟩ := hfollows v p w hpath
    -- the first item is in its place before the rest is converted
    obtain ⟨filled, p₂, w₂, converted, hfill, hpath₂, hrest, heq⟩ := ih hrestPlaces
      (items.set! (i.toInt - 1).toNat j) (p₁.write items.size (i.toInt - 1)) w₁
      fun r => by rw [← hpath r, ← hpath₁]; rfl
    refine ⟨filled, p₂, w₂, (.int i, j) :: converted, ?_, hpath₂.trans hpath₁, ?_, ?_⟩
    · rw [Guest.fillArray, stateT_bind, htrack]
      exact hfill
    · rw [convertEntries, stateT_bind, hconvert]
      dsimp only
      rw [stateT_bind]
      have hrest' : convertEntries convert rest p₁.expanded.length w₁ = ((converted, p₂.expanded.length), w₂) := hrest
      rw [hrest']
      rfl
    · rw [heq, List.foldl_cons]
      dsimp only
      rw [hi]

/-- The like for members. -/
theorem Follows.gatherMembers (hfollows : Follows path convert track) (entries : List (Value × Value))
    (members : Std.TreeMap String Json) (p : Progress) (w : World) (hpath : ∀ r, r ∈ p.path ↔ r ∈ path) :
    ∃ gathered p' w' converted, Guest.gatherMembers track members entries p w = ((gathered, p'), w') ∧
      p'.path = p.path ∧
      convertEntries convert entries p.expanded.length w = ((converted, p'.expanded.length), w') ∧
      gathered = (converted.map fun (k, j) => (k.keyText, j)).foldl (fun m (k, v) => m.insert k v) members := by
  induction entries generalizing members p w with
  | nil => exact ⟨members, p, w, [], rfl, rfl, rfl, rfl⟩
  | cons e rest ih =>
    obtain ⟨k, v⟩ := e
    obtain ⟨j, p₁, w₁, htrack, hpath₁, hconvert⟩ := hfollows v p w hpath
    obtain ⟨gathered, p₂, w₂, converted, hgather, hpath₂, hrest, heq⟩ := ih (members.insert k.keyText j) p₁ w₁
      fun r => by rw [hpath₁]; exact hpath r
    refine ⟨gathered, p₂, w₂, (k, j) :: converted, ?_, hpath₂.trans hpath₁, ?_, heq⟩
    · rw [Guest.gatherMembers, stateT_bind, htrack]
      exact hgather
    · rw [convertEntries, stateT_bind, hconvert]
      dsimp only
      rw [stateT_bind, hrest]
      rfl

theorem isSequence_places {entries : List (Value × Value)} {size : ℕ} (hseq : isSequence entries size = true) :
    entries.length = size ∧ ∀ e ∈ entries, (sequencePlace? size e.1).isSome = true := by
  rw [isSequence, Bool.and_eq_true, Bool.and_eq_true, List.all_eq_true, beq_iff_eq] at hseq
  exact ⟨hseq.1.2, hseq.2⟩

/-- What `convert` makes of what it read of a table. -/
def convertRead (convert : Value → RenderM Json) (entries : List (Value × Value)) (size : ℕ) : RenderM Json := do
  let converted ← convertEntries convert entries
  if isSequence entries size then pure (sequenceJson size converted)
  else pure (.ofMembers (converted.map fun (k, j) => (k.keyText, j)))

/-- What was read of a table is converted alike. -/
theorem Follows.convertTable (hfollows : Follows path convert track) (entries : List (Value × Value)) (size : ℕ)
    (p : Progress) (w : World) (hpath : ∀ r, r ∈ p.path ↔ r ∈ path) :
    ∃ j p' w', Guest.convertTable track entries size p w = ((j, p'), w') ∧ p'.path = p.path ∧
      convertRead convert entries size p.expanded.length w = ((j, p'.expanded.length), w') := by
  rw [Guest.convertTable, convertRead, stateT_bind]
  cases hseq : isSequence entries size with
  | true =>
    obtain ⟨filled, p', w', converted, hfill, hpath', hconverted, rfl⟩ := hfollows.fillArray size entries
      (isSequence_places hseq).2 (Array.replicate size Json.null) (p.allocate size) w hpath
    refine ⟨sequenceJson size converted, p', w', ?_, hpath', ?_⟩
    · rw [if_pos rfl, stateT_bind, stateT_modify]
      dsimp only
      rw [stateT_bind, hfill]
      rfl
    · have hsame : convertEntries convert entries p.expanded.length w = ((converted, p'.expanded.length), w') :=
        hconverted
      rw [hsame]
      rfl
  | false =>
    obtain ⟨gathered, p', w', converted, hgather, hpath', hconverted, rfl⟩ :=
      hfollows.gatherMembers entries ∅ p w hpath
    refine ⟨.ofMembers (converted.map fun (k, j) => (k.keyText, j)), p', w', ?_, hpath', ?_⟩
    · rw [if_neg Bool.false_ne_true, stateT_bind, hgather]
      rfl
    · rw [hconverted]
      rfl

theorem convert_of_cycle {r : Ref} (hr : r ∈ path) (left n : ℕ) (w : World) :
    Guest.convert left path (.table r) n w = ((.str "<cycle>", n), w) := by
  cases left <;> rw [Guest.convert, if_pos (by simpa using hr)] <;> rfl

theorem convert_of_cut {r : Ref} (hr : r ∉ path) {left n : ℕ} (hcut : left = 0 ∨ maxTables ≤ n) (w : World) :
    Guest.convert left path (.table r) n w = ((.str "<table>", n), w) := by
  cases left with
  | zero =>
    rw [Guest.convert, if_neg (by simpa using hr)]
    rfl
  | succ left =>
    have hfull := hcut.resolve_left (Nat.succ_ne_zero left)
    rw [Guest.convert, if_neg (by simpa using hr)]
    dsimp only
    rw [stateT_bind, stateT_get]
    dsimp only
    rw [if_pos hfull]
    rfl

theorem convert_of_table {r : Ref} (hr : r ∉ path) {n : ℕ} (hroom : ¬ maxTables ≤ n) (left : ℕ) {w w' : World}
    {result : Except GuestError (List (Value × Value) × ℕ)} :
    visibleEntries (.table r) w = (result, w') → Guest.convert (left + 1) path (.table r) n w =
      match result with
      | .error _ => ((.str "<table>", n), w')
      | .ok (entries, size) => convertRead (Guest.convert left (r :: path)) entries size (n + 1) w' := by
  intro hread
  rw [Guest.convert, if_neg (by simpa using hr)]
  dsimp only
  rw [stateT_bind, stateT_get]
  dsimp only
  rw [if_neg hroom, stateT_bind, stateT_lift, hread]
  cases result <;> rfl

theorem convert_of_scalar {v : Value} (hv : ∀ r, v ≠ .table r) (left n : ℕ) (w : World) :
    Guest.convert left path v n w = ((scalarJson v, n), w) := by
  cases left <;> rw [Guest.convert] <;> first | rfl | exact hv

/-- The two converters do the same, where tables may be nested as much deeper for the one as the other is not deep. -/
theorem convert_follows (left depth : ℕ) (hleft : left + depth = maxNesting) (path : List Ref) :
    Follows path (Guest.convert left path) (convertTracked depth) := by
  induction left using Nat.strong_induction_on generalizing depth path with
  | _ left ih =>
  intro v p w hpath
  by_cases hv : ∀ r, v ≠ .table r
  · exact ⟨_, _, _, convertTracked_scalar hv depth p w, rfl, convert_of_scalar hv left _ w⟩
  obtain ⟨r, rfl⟩ : ∃ r, v = .table r := by simpa using hv
  by_cases hr : r ∈ p.path
  · exact ⟨_, _, _, convertTracked_cycle hr depth w, rfl, convert_of_cycle ((hpath r).mp hr) left _ w⟩
  have hr' : r ∉ path := fun hmem => hr ((hpath r).mpr hmem)
  by_cases hcut : maxNesting ≤ depth ∨ maxTables ≤ p.expanded.length
  · have hcut' : left = 0 ∨ maxTables ≤ p.expanded.length := hcut.imp_left fun hdeep => by omega
    exact ⟨_, _, _, convertTracked_cut hr hcut w, rfl, convert_of_cut hr' hcut' w⟩
  obtain ⟨hdeep, hroom⟩ := not_or.mp hcut
  obtain ⟨left, rfl⟩ : ∃ deeper, left = deeper + 1 := ⟨left - 1, by omega⟩
  obtain ⟨asked, result, w₁, hread, hvisible, -⟩ := readTable_spec r p.visit w
  have htracked := convertTracked_table hr hcut hread
  have hconvert := convert_of_table hr' hroom left hvisible
  cases result with
  | error e => exact ⟨_, _, _, htracked, rfl, hconvert⟩
  | ok read =>
    obtain ⟨entries, size⟩ := read
    -- the table is marked while its entries are converted, and was not marked before
    have hmarked : ∀ r', r' ∈ ((p.visit.ask asked).enter r depth).path ↔ r' ∈ r :: path := by
      intro r'
      show r' ∈ insert r p.path ↔ _
      rw [Finset.mem_insert, List.mem_cons, hpath]
    obtain ⟨j, p₂, w₂, htable, hpath₂, hsame⟩ :=
      (ih left (Nat.lt_succ_self left) (depth + 1) (by omega) (r :: path)).convertTable entries size _ w₁ hmarked
    refine ⟨j, p₂.leave r, w₂, ?_, ?_, hconvert.trans hsame⟩
    · rw [htracked]
      dsimp only
      rw [htable]
    · show p₂.path.erase r = p.path
      rw [hpath₂]
      exact Finset.erase_insert hr

/-! ## What a conversion adds to the account -/

namespace Progress

/-- An account within the limits. -/
structure Within (p : Progress) : Prop where
  expanded : p.expanded.length ≤ maxTables
  depths : ∀ e ∈ p.expanded, e.2 < maxNesting
  asked : ∀ n ∈ p.asked, n ≤ maxEntries
  arrays : ∀ n ∈ p.arrays, n ≤ maxEntries
  writes : ∀ e ∈ p.writes, e.1 ∈ p.arrays ∧ 0 ≤ e.2 ∧ e.2 < e.1

/-- How an account goes on while `n` values are converted, with all that is in them. Only a table that is expanded
brings more values, and not more than are read of it. -/
structure Advances (n : ℕ) (p p' : Progress) : Prop where
  path : p'.path = p.path
  within : p.Within → p'.Within
  arrays : p.arrays ⊆ p'.arrays
  visits : p'.visits + maxEntries * p.expanded.length ≤ p.visits + n + maxEntries * p'.expanded.length
  asked : p'.asked.length + p.visits ≤ p.asked.length + p'.visits

variable {m n : ℕ} {p q q' : Progress}

theorem Advances.refl (p : Progress) : Advances 0 p p :=
  ⟨rfl, id, List.Subset.refl _, Nat.le_refl _, Nat.le_refl _⟩

theorem Advances.trans (h : Advances m p q) (h' : Advances n q q') : Advances (m + n) p q' where
  path := h'.path.trans h.path
  within := h'.within ∘ h.within
  arrays := List.Subset.trans h.arrays h'.arrays
  visits := by
    have hvisits := h.visits
    have hvisits' := h'.visits
    omega
  asked := by
    have hasked := h.asked
    have hasked' := h'.asked
    omega

theorem advances_visit (p : Progress) : Advances 1 p p.visit where
  path := rfl
  within h := ⟨h.expanded, h.depths, h.asked, h.arrays, h.writes⟩
  arrays := List.Subset.refl _
  visits := Nat.le_refl _
  asked := Nat.add_le_add_left (Nat.le_succ _) _

theorem advances_allocate {size : ℕ} (hsize : size ≤ maxEntries) (p : Progress) :
    Advances 0 p (p.allocate size) where
  path := rfl
  within h := ⟨h.expanded, h.depths, h.asked, List.forall_mem_cons.mpr ⟨hsize, h.arrays⟩,
    fun e he => ⟨List.mem_cons_of_mem _ (h.writes e he).1, (h.writes e he).2⟩⟩
  arrays := List.subset_cons_self _ _
  visits := Nat.le_refl _
  asked := Nat.le_refl _

theorem advances_write {size : ℕ} {place : ℤ} (hsize : size ∈ p.arrays) (hplace : 0 ≤ place ∧ place < size) :
    Advances 0 p (p.write size place) where
  path := rfl
  within h := ⟨h.expanded, h.depths, h.asked, h.arrays, List.forall_mem_cons.mpr ⟨⟨hsize, hplace⟩, h.writes⟩⟩
  arrays := List.Subset.refl _
  visits := Nat.le_refl _
  asked := Nat.le_refl _

variable {asked : List ℕ}

/-- A visit pays for the iteration over the table that is visited. -/
theorem advances_ask (hasked : ∀ n ∈ asked, n ≤ maxEntries) (hone : asked.length ≤ 1) (p : Progress) :
    Advances 1 p (p.visit.ask asked) where
  path := rfl
  within h := ⟨h.expanded, h.depths, List.forall_mem_append.mpr ⟨hasked, h.asked⟩, h.arrays, h.writes⟩
  arrays := List.Subset.refl _
  visits := Nat.le_refl _
  asked := by
    show (asked ++ p.asked).length + p.visits ≤ p.asked.length + (p.visits + 1)
    rw [List.length_append]
    omega

/-- A table that is expanded pays for the values that are read of it. -/
theorem Advances.within_table {r : Ref} {depth : ℕ} (h : Advances m p q) (hr : r ∉ p.path)
    (hdeep : depth < maxNesting) (hroom : q.expanded.length < maxTables) (hread : n ≤ maxEntries)
    (htable : Advances n (q.enter r depth) q') : Advances m p (q'.leave r) where
  path := by
    show q'.path.erase r = p.path
    rw [htable.path]
    show (insert r q.path).erase r = p.path
    rw [h.path]
    exact Finset.erase_insert hr
  within hp := by
    have hq := h.within hp
    have hq' := htable.within
      ⟨hroom, List.forall_mem_cons.mpr ⟨hdeep, hq.depths⟩, hq.asked, hq.arrays, hq.writes⟩
    exact ⟨hq'.expanded, hq'.depths, hq'.asked, hq'.arrays, hq'.writes⟩
  arrays := List.Subset.trans h.arrays htable.arrays
  visits := by
    have hvisits := h.visits
    have hinside : q'.visits + maxEntries * (q.expanded.length + 1) ≤
        q.visits + n + maxEntries * q'.expanded.length := htable.visits
    show q'.visits + maxEntries * p.expanded.length ≤ p.visits + m + maxEntries * q'.expanded.length
    -- one more table is expanded, which allows for as many visits as there are entries read
    rw [Nat.mul_succ] at hinside
    omega
  asked := by
    have hasked := h.asked
    have hinside : q'.asked.length + q.visits ≤ q.asked.length + q'.visits := htable.asked
    show q'.asked.length + p.visits ≤ p.asked.length + q'.visits
    omega

end Progress

open Progress

/-- Every value that is converted is accounted for as one. -/
def Accounts (track : Value → TrackM Json) : Prop :=
  ∀ v p w, Advances 1 p (track v p w).1.2

theorem Accounts.fillArray (haccounts : Accounts track) (entries : List (Value × Value)) (items : Array Json)
    (hplaces : ∀ e ∈ entries, (sequencePlace? items.size e.1).isSome = true) (p : Progress)
    (hmade : items.size ∈ p.arrays) (w : World) :
    Advances entries.length p (Guest.fillArray track items entries p w).1.2 := by
  induction entries generalizing items p w with
  | nil => exact Advances.refl p
  | cons e rest ih =>
    obtain ⟨hplace, hrest⟩ := List.forall_mem_cons.mp hplaces
    obtain ⟨k, v⟩ := e
    obtain ⟨i, rfl, hlow, hhigh, -⟩ : ∃ i : Int64, k = .int i ∧ _ := exists_place hplace
    have hvalue := haccounts v p w
    have hmade₁ : items.size ∈ (track v p w).1.2.arrays := hvalue.arrays hmade
    have hbounds : 0 ≤ i.toInt - 1 ∧ i.toInt - 1 < items.size := by omega
    have hwrite := advances_write hmade₁ hbounds
    have hsize : (items.set! (i.toInt - 1).toNat (track v p w).1.1).size = items.size := by simp
    have hafter := ih (items.set! (i.toInt - 1).toNat (track v p w).1.1) (by rwa [hsize])
      ((track v p w).1.2.write items.size (i.toInt - 1)) (by rwa [hsize]) (track v p w).2
    rw [List.length_cons, Nat.add_comm]
    exact (hvalue.trans hwrite).trans hafter

theorem Accounts.gatherMembers (haccounts : Accounts track) (entries : List (Value × Value))
    (members : Std.TreeMap String Json) (p : Progress) (w : World) :
    Advances entries.length p (Guest.gatherMembers track members entries p w).1.2 := by
  induction entries generalizing members p w with
  | nil => exact Advances.refl p
  | cons e rest ih =>
    rw [List.length_cons, Nat.add_comm]
    exact (haccounts e.2 p w).trans (ih _ _ _)

/-- What was read of a table is accounted for. A sequence is as long as what was read of it, and so is its array. -/
theorem Accounts.convertTable (haccounts : Accounts track) {entries : List (Value × Value)}
    (hread : entries.length ≤ maxEntries) (size : ℕ) (p : Progress) (w : World) :
    Advances entries.length p (Guest.convertTable track entries size p w).1.2 := by
  rw [Guest.convertTable]
  cases hseq : isSequence entries size with
  | true =>
    obtain ⟨hlength, hplaces⟩ := isSequence_places hseq
    have hmake := advances_allocate (hlength ▸ hread) p
    have hmade : (Array.replicate size Json.null).size ∈ (p.allocate size).arrays := by
      rw [Array.size_replicate]
      exact List.mem_cons_self
    have hfill := haccounts.fillArray entries (Array.replicate size Json.null)
      (by rwa [Array.size_replicate]) (p.allocate size) hmade w
    exact Nat.zero_add entries.length ▸ hmake.trans hfill
  | false => exact haccounts.gatherMembers entries ∅ p w

/-- A conversion accounts for its value if those within it do. -/
theorem accounts_of_deeper {depth : ℕ} (hdeeper : depth < maxNesting → Accounts (convertTracked (depth + 1))) :
    Accounts (convertTracked depth) := by
  intro v p w
  by_cases hv : ∀ r, v ≠ .table r
  · rw [convertTracked_scalar hv]
    exact advances_visit p
  obtain ⟨r, rfl⟩ : ∃ r, v = .table r := by simpa using hv
  by_cases hr : r ∈ p.path
  · rw [convertTracked_cycle hr]
    exact advances_visit p
  by_cases hcut : maxNesting ≤ depth ∨ maxTables ≤ p.expanded.length
  · rw [convertTracked_cut hr hcut]
    exact advances_visit p
  obtain ⟨asked, result, w₁, hread, -, hasked, hone, hlength⟩ := readTable_spec r p.visit w
  rw [convertTracked_table hr hcut hread]
  have hpaid := advances_ask hasked hone p
  cases result with
  | error e => exact hpaid
  | ok read =>
    obtain ⟨hdeep, hroom⟩ := not_or.mp hcut
    have hentries := hlength read.1 read.2 rfl
    have htable := (hdeeper (by omega)).convertTable hentries read.2 ((p.visit.ask asked).enter r depth) w₁
    -- what is read of the table is paid for by its expansion
    exact hpaid.within_table hr (by omega) (Nat.lt_of_not_le hroom) hentries htable

/-- The induction is on how much deeper tables may be nested. -/
theorem convertTracked_accounts (left depth : ℕ) (hleft : maxNesting ≤ left + depth) :
    Accounts (convertTracked depth) := by
  induction left generalizing depth with
  | zero => exact accounts_of_deeper fun hdeep => by omega
  | succ left ih => exact accounts_of_deeper fun _ => ih (depth + 1) (by omega)

theorem within_empty : ({} : Progress).Within where
  expanded := Nat.zero_le _
  depths _ he := nomatch he
  asked _ hn := nomatch hn
  arrays _ hn := nomatch hn
  writes _ he := nomatch he

/-- The conversion of any value, whatever guest code does for it, is that which is kept account of, and its account is
within the limits: of the tables that are expanded, of their depths, of the entries that are asked for of each, and of
the arrays that are made, each of which is written within its bounds. A conversion marks no table for longer than it
takes. -/
theorem conversion_is_bounded (v : Value) (w : World) :
    (∃ j p w', convertTracked 0 v {} w = ((j, p), w') ∧ toJson v w = (j, w') ∧
      p.path = ∅ ∧
      p.expanded.length ≤ 4096 ∧ (∀ e ∈ p.expanded, e.2 < 16) ∧
      (∀ n ∈ p.asked, n ≤ 10000) ∧ p.asked.length ≤ p.visits ∧
      (∀ n ∈ p.arrays, n ≤ 10000) ∧ (∀ e ∈ p.writes, e.1 ∈ p.arrays ∧ 0 ≤ e.2 ∧ e.2 < e.1) ∧
      p.visits ≤ 1 + 10000 * 4096) ∧
    ∀ depth v p w, (convertTracked depth v p w).1.2.path = p.path := by
  have haccounts (depth) : Accounts (convertTracked depth) := convertTracked_accounts maxNesting depth (by omega)
  refine ⟨?_, fun depth v p w => (haccounts depth v p w).path⟩
  obtain ⟨j, p, w', htracked, hpath, hconvert⟩ :=
    convert_follows maxNesting 0 rfl [] v {} w fun r => by simp
  have hadvances : Advances 1 {} p := by simpa [htracked] using haccounts 0 v {} w
  have hwithin := hadvances.within within_empty
  refine ⟨j, p, w', htracked, ?_, hpath, hwithin.expanded, hwithin.depths, hwithin.asked, by simpa using hadvances.asked,
    hwithin.arrays, hwithin.writes, ?_⟩
  · show (((convert maxNesting [] v 0) w).1.1, ((convert maxNesting [] v 0) w).2) = (j, w')
    rw [show convert maxNesting [] v 0 w = ((j, p.expanded.length), w') from hconvert]
  · -- each visit but the first is of a value in one of the tables that are expanded
    have hvisits : p.visits + maxEntries * 0 ≤ 0 + 1 + maxEntries * p.expanded.length := hadvances.visits
    have htables := Nat.mul_le_mul_left maxEntries hwithin.expanded
    have hmost : maxEntries * maxTables = 10000 * 4096 := rfl
    omega

end ScriptHost.Guest
