import Mathlib.Data.Nat.Digits.Defs
import ScriptHost.Console
import ScriptHost.Guest.Library.Scripts
import ScriptHost.Proofs.Guest.Arguments
import ScriptHost.Proofs.Text.Words

/-!
# The lines of the console

What a line says is told by its words. The first one, in lower case, names the instruction, and a grammar says which
words may follow.

* `Guest.Library.registrable_iff`: the names that scripts may give their commands.
* `Instruction.Numeral`, `Instruction.readCount?_eq_some_iff`: the texts that are read as numbers.
* `Instruction.Reads`, `Instruction.ofWords_eq_ok_iff`: the grammar, and that words are read by it.
* `Instruction.ofWords_of_not_reads`: words that are not of the grammar ask for a form, or are unknown.
* `Instruction.lines_read_by_grammar`: what a line is read as.
-/

namespace ScriptHost.Guest.Library

/-! ## Names of commands -/

/-- A name that a script may give to a command: a call of `register_command` with it succeeds. -/
def Registrable (name : String) : Prop :=
  ∃ (context : CallContext) (args : Args) (w : World) (o : Outcome),
    (args.get 2).takeText = .ok name ∧ (control .registerCommand args context w).1 = .ok o

theorem isCommandName_of_registrable {name : String} (h : Registrable name) : isCommandName name = true := by
  obtain ⟨context, args, w, o, htext, h⟩ := h
  -- the object and all arguments are taken before the name is looked at
  obtain ⟨number, w, -, h⟩ := exists_of_bind_ok h
  obtain ⟨command, w, hcommand, h⟩ := exists_of_bind_ok h
  obtain ⟨handler, w, -, h⟩ := exists_of_bind_ok h
  obtain ⟨description, w, -, h⟩ := exists_of_bind_ok h
  obtain rfl := Except.ok.inj (htext.symm.trans (take_of_accept_ok hcommand))
  by_contra hname
  rw [if_neg hname] at h
  cases h

/-- A script that gives the name to a command without a description, as its control object is told to. -/
theorem registrable_of_isCommandName {name : String} (h : isCommandName name = true) : Registrable name := by
  let args : Args := [.object (.control 0), .ofText name, .native .idle]
  have hcommand : accept (some "ScriptControl.register_command") args 2 Value.takeText = pure name :=
    accept_of_take (takeText_ofText name)
  have hcontrol : control .registerCommand args =
      accept (some "ScriptControl.register_command") args 2 Value.takeText >>= fun command =>
        if isCommandName command then do
          inWorld (Host.changeControl 0 fun c => c.addCommand ⟨command, none, .native .idle⟩)
          results []
        else hostFault (.runtime s!"invalid command name '{command}'") := rfl
  refine ⟨⟨fun _ _ w => (.exhausted, w), [], none⟩, args, { guest := {} }, .values [], takeText_ofText name, ?_⟩
  rw [hcontrol, hcommand, pure_bind, if_pos h]
  rfl

/-- Commands may have the names that are words. -/
theorem registrable_iff {name : String} :
    Registrable name ↔ name ≠ "" ∧ ∀ c ∈ name.toList, Text.isBlank c = false := by
  have hname : isCommandName name = true ↔ name ≠ "" ∧ ∀ c ∈ name.toList, Text.isBlank c = false := by
    simp [isCommandName]
  exact ⟨fun h => hname.mp (isCommandName_of_registrable h), fun h => registrable_of_isCommandName (hname.mpr h)⟩

end ScriptHost.Guest.Library

namespace ScriptHost.Instruction

open Text (words lowercase isBlank)

variable {s head line : String} {rest : List String} {i : Instruction} {n : ℕ}

/-! ## Numbers -/

/-- A text that writes a number below `2^64`: decimal digits, and before them it may be a plus sign. -/
def Numeral (s : String) (n : ℕ) : Prop :=
  ∃ digits : List Char, (s.toList = digits ∨ s.toList = '+' :: digits) ∧ digits ≠ [] ∧
    (∀ c ∈ digits, '0' ≤ c ∧ c ≤ '9') ∧
    Nat.ofDigits 10 (digits.reverse.map fun c => c.toNat - '0'.toNat) = n ∧ n < 2 ^ 64

theorem isDigit_iff {c : Char} : c.isDigit = true ↔ '0' ≤ c ∧ c ≤ '9' :=
  Bool.and_eq_true_iff.trans (and_congr decide_eq_true_iff decide_eq_true_iff)

theorem foldl_digits (digits : List Char) :
    digits.foldl (fun n c => 10 * n + (c.toNat - '0'.toNat)) 0 =
      Nat.ofDigits 10 (digits.reverse.map fun c => c.toNat - '0'.toNat) := by
  rw [Nat.ofDigits_eq_foldr, List.foldr_map, List.foldl_eq_foldr_reverse]
  congr 1
  funext c n
  exact Nat.add_comm _ _

/-- What is read of the characters after the sign. -/
theorem count_eq_some_iff (digits : List Char) :
    (if digits.isEmpty || !digits.all Char.isDigit then none
      else if digits.foldl (fun n c => 10 * n + (c.toNat - '0'.toNat)) 0 < 0x10000000000000000 then
        some (digits.foldl (fun n c => 10 * n + (c.toNat - '0'.toNat)) 0)
      else none) = some n ↔
    digits ≠ [] ∧ (∀ c ∈ digits, '0' ≤ c ∧ c ≤ '9') ∧
      Nat.ofDigits 10 (digits.reverse.map fun c => c.toNat - '0'.toNat) = n ∧ n < 2 ^ 64 := by
  have hdigits : (digits.isEmpty || !digits.all Char.isDigit) = false ↔
      digits ≠ [] ∧ ∀ c ∈ digits, '0' ≤ c ∧ c ≤ '9' := by
    rw [Bool.or_eq_false_iff, List.isEmpty_eq_false_iff, Bool.not_eq_false', List.all_eq_true]
    simp only [isDigit_iff]
  rw [← and_assoc, ← hdigits, foldl_digits]
  cases digits.isEmpty || !digits.all Char.isDigit with
  | true => simp
  | false =>
    rw [if_neg Bool.false_ne_true, and_iff_right rfl]
    constructor
    · intro h
      split at h
      · next hsmall =>
        obtain rfl := Option.some.inj h
        exact ⟨rfl, hsmall⟩
      · cases h
    · rintro ⟨rfl, hsmall⟩
      exact if_pos hsmall

/-- Numbers are read exactly from the texts that write them. -/
theorem readCount?_eq_some_iff : readCount? s = some n ↔ Numeral s n := by
  unfold readCount?
  split
  next digits hs =>
    refine (count_eq_some_iff digits).trans ⟨fun h => ⟨digits, .inr hs, h⟩, ?_⟩
    rintro ⟨digits', hs' | hs', h⟩
    · -- a sign is no digit
      have hsign := h.2.1 '+' (by rw [← hs', hs]; exact List.mem_cons_self)
      exact absurd hsign (by decide)
    · obtain rfl := (List.cons.inj (hs.symm.trans hs')).2
      exact h
  next hs =>
    refine (count_eq_some_iff s.toList).trans ⟨fun h => ⟨s.toList, .inl rfl, h⟩, ?_⟩
    rintro ⟨digits, rfl | hs', h⟩
    · exact h
    · exact absurd hs' (hs digits)

/-! ## The grammar -/

/-- The first words that say everything, and what they say. -/
def plainWords : List (String × Instruction) :=
  [("help", .help), ("?", .help), ("exit", .exit), ("quit", .exit), ("q", .exit), ("list", .list), ("ls", .list),
    ("bundles", .bundles), ("commands", .commands), ("load-all", .loadAll)]

/-- The first words that ask for others, and the form they ask for. -/
def forms : List (String × String) :=
  [("load", "load <name>"), ("unload", "unload <name>"), ("reload", "reload <name>"),
    ("get", "get <script> <path>"), ("tick", "tick [n]"), ("call", "call <command> [args...]")]

/-- The grammar of the console: a first word in lower case, the words after it, and the instruction they make. -/
inductive Reads : String → List String → Instruction → Prop where
  | plain {head : String} {i : Instruction} (h : (head, i) ∈ plainWords) (rest : List String) : Reads head rest i
  | load (name : String) : Reads "load" [name] (.load name)
  | unload (name : String) : Reads "unload" [name] (.unload name)
  | reload (name : String) : Reads "reload" [name] (.reload name)
  | get (script path : String) : Reads "get" [script, path] (.get script path)
  | tickOnce : Reads "tick" [] (.tick 1)
  | tick {word : String} {count : ℕ} (h : Numeral word count) : Reads "tick" [word] (.tick count)
  | call (command : String) (arguments : List String) : Reads "call" (command :: arguments) (.call command arguments)

theorem ofWords_of_reads (h : Reads head rest i) : ofWords head rest = .ok i := by
  cases h with
  | plain h =>
    simp only [plainWords, List.mem_cons, Prod.mk.injEq, List.not_mem_nil, or_false] at h
    rcases h with h | h | h | h | h | h | h | h | h | h <;> (obtain ⟨rfl, rfl⟩ := h; rfl)
  | load | unload | reload | get | tickOnce | call => rfl
  | tick h =>
    rename_i word count
    have hcount : readCount? word = some count := readCount?_eq_some_iff.mpr h
    simp only [ofWords, hcount]

theorem single_cases {form : String} {make : String → Instruction} (hreads : ∀ name, Reads head [name] (make name))
    (hwords : ∀ rest, ofWords head rest = (single form rest).map make) (rest : List String) :
    (∃ i, Reads head rest i) ∨ ofWords head rest = .error (usage form) := by
  rw [hwords]
  match rest with
  | [name] => exact .inl ⟨make name, hreads name⟩
  | [] | _ :: _ :: _ => exact .inr rfl

/-- A first word that asks for others finds them, or its form is asked for. -/
theorem ofWords_of_form {form : String} (h : (head, form) ∈ forms) (rest : List String) :
    (∃ i, Reads head rest i) ∨ ofWords head rest = .error (usage form) := by
  simp only [forms, List.mem_cons, Prod.mk.injEq, List.not_mem_nil, or_false] at h
  rcases h with ⟨rfl, rfl⟩ | ⟨rfl, rfl⟩ | ⟨rfl, rfl⟩ | ⟨rfl, rfl⟩ | ⟨rfl, rfl⟩ | ⟨rfl, rfl⟩
  · exact single_cases .load (fun _ => rfl) rest
  · exact single_cases .unload (fun _ => rfl) rest
  · exact single_cases .reload (fun _ => rfl) rest
  · match rest with
    | [script, path] => exact .inl ⟨_, .get script path⟩
    | [] | [_] | _ :: _ :: _ :: _ => exact .inr rfl
  · match rest with
    | [] => exact .inl ⟨_, .tickOnce⟩
    | [word] =>
      cases hcount : readCount? word with
      | some count => exact .inl ⟨_, .tick (readCount?_eq_some_iff.mp hcount)⟩
      | none => exact .inr (by simp only [ofWords, hcount])
    | _ :: _ :: _ => exact .inr rfl
  · match rest with
    | command :: arguments => exact .inl ⟨_, .call command arguments⟩
    | [] => exact .inr rfl

/-- The error of a first word that is in neither table. -/
theorem ofWords_of_unknown (hplain : head ∉ plainWords.map Prod.fst) (hform : head ∉ forms.map Prod.fst) :
    ofWords head rest = .error (.host s!"Unknown console command '{head}' (try 'help')") := by
  unfold ofWords
  -- any other first word is in one of the tables
  split <;> first | rfl | simp [plainWords, forms] at hplain hform

/-- Words that are no instruction of the grammar are an error, which asks for the form of the first word if it has
one. -/
theorem ofWords_of_not_reads (h : ∀ i, ¬Reads head rest i) :
    (∃ form, (head, form) ∈ forms ∧ ofWords head rest = .error (usage form)) ∨
      head ∉ plainWords.map Prod.fst ∧ head ∉ forms.map Prod.fst ∧
        ofWords head rest = .error (.host s!"Unknown console command '{head}' (try 'help')") := by
  have hplain : head ∉ plainWords.map Prod.fst := by
    intro hhead
    obtain ⟨⟨_, i⟩, hi, rfl⟩ := List.mem_map.mp hhead
    exact h i (.plain hi rest)
  by_cases hform : head ∈ forms.map Prod.fst
  · obtain ⟨⟨_, form⟩, hmem, rfl⟩ := List.mem_map.mp hform
    exact .inl ⟨form, hmem, (ofWords_of_form hmem rest).resolve_left (not_exists.mpr h)⟩
  · exact .inr ⟨hplain, hform, ofWords_of_unknown hplain hform⟩

/-- The instructions are those of the grammar. -/
theorem ofWords_eq_ok_iff : ofWords head rest = .ok i ↔ Reads head rest i := by
  refine ⟨fun h => ?_, ofWords_of_reads⟩
  by_contra hi
  -- the words would be read as nothing at all, and so be an error
  have hnone : ∀ i', ¬Reads head rest i' := by
    intro i' hi'
    obtain rfl := Except.ok.inj ((ofWords_of_reads hi').symm.trans h)
    exact hi hi'
  rcases ofWords_of_not_reads hnone with ⟨_, _, herror⟩ | ⟨_, _, herror⟩ <;> cases herror.symm.trans h

/-! ## Lines -/

theorem parseLine_of_words (h : words line = head :: rest) : parseLine line = (ofWords (lowercase head) rest).map some := by
  rw [parseLine, h]

theorem parseLine_eq_none_iff : parseLine line = .ok none ↔ words line = [] := by
  cases hwords : words line with
  | nil => simp [parseLine, hwords]
  | cons head rest =>
    rw [parseLine_of_words hwords]
    cases ofWords (lowercase head) rest <;> simp [Except.map]

theorem parseLine_eq_some_iff :
    parseLine line = .ok (some i) ↔ ∃ head rest, words line = head :: rest ∧ Reads (lowercase head) rest i := by
  cases hwords : words line with
  | nil => simp [parseLine, hwords]
  | cons head rest =>
    have hreads : Reads (lowercase head) rest i ↔ ofWords (lowercase head) rest = .ok i := ofWords_eq_ok_iff.symm
    rw [parseLine_of_words hwords]
    cases hresult : ofWords (lowercase head) rest <;> simp [Except.map, hreads, hresult]

/-- The words tell what a line is read as, the first one in whatever case. -/
theorem parseLine_congr {line' : String} (hhead : (words line).head?.map lowercase = (words line').head?.map lowercase)
    (hrest : (words line).tail = (words line').tail) : parseLine line = parseLine line' := by
  unfold parseLine
  cases hwords : words line <;> cases hwords' : words line' <;> simp_all

/-- A line that is put together from `call`, the name of a command and arguments is read as that call. -/
theorem parseLine_call {name : String} {arguments gaps : List String} (hname : Guest.Library.Registrable name)
    (harguments : ∀ a ∈ arguments, a ≠ "" ∧ ∀ c ∈ a.toList, isBlank c = false)
    (hlength : gaps.length = arguments.length + 1) (hgaps : ∀ gap ∈ gaps, gap ≠ "" ∧ ∀ c ∈ gap.toList, isBlank c = true) :
    parseLine ("call" ++ String.join (List.zipWith (· ++ ·) gaps (name :: arguments))) = .ok (some (.call name arguments)) := by
  have hfirst : "call" ≠ "" ∧ ∀ c ∈ "call".toList, isBlank c = false := by simp [isBlank]
  have hwords := Text.words_line hfirst (hlength : gaps.length = (name :: arguments).length) hgaps
    (List.forall_mem_cons.mpr ⟨Guest.Library.registrable_iff.mp hname, harguments⟩)
  have hcall : lowercase "call" = "call" := by decide +kernel
  exact parseLine_eq_some_iff.mpr ⟨_, _, hwords, hcall ▸ .call name arguments⟩

/-- **Lines are read by the grammar.** What a line is read as depends on its words alone, which are what it is made of
between blanks, and on the first of them in lower case. A line without words holds no instruction, the words of the
grammar are the instruction that they make, and all others are an error. So every command that a script may register can
be called with any words as arguments, whatever blanks stand between them. -/
theorem lines_read_by_grammar (line : String) :
    (∀ ws, words line = ws ↔ Text.Spaced (ws.map String.toList) line.toList) ∧
      (∀ line', (words line).head?.map lowercase = (words line').head?.map lowercase →
        (words line).tail = (words line').tail → parseLine line = parseLine line') ∧
      (parseLine line = .ok none ↔ words line = []) ∧
      (∀ i, parseLine line = .ok (some i) ↔
        ∃ head rest, words line = head :: rest ∧ Reads (lowercase head) rest i) ∧
      (∀ head rest, words line = head :: rest → (∀ i, ¬Reads (lowercase head) rest i) →
        (∃ form, (lowercase head, form) ∈ forms ∧ parseLine line = .error (usage form)) ∨
          lowercase head ∉ plainWords.map Prod.fst ∧ lowercase head ∉ forms.map Prod.fst ∧
            parseLine line = .error (.host s!"Unknown console command '{lowercase head}' (try 'help')")) ∧
      ∀ (name : String) (arguments gaps : List String), Guest.Library.Registrable name →
        (∀ a ∈ arguments, a ≠ "" ∧ ∀ c ∈ a.toList, isBlank c = false) → gaps.length = arguments.length + 1 →
        (∀ gap ∈ gaps, gap ≠ "" ∧ ∀ c ∈ gap.toList, isBlank c = true) →
        line = "call" ++ String.join (List.zipWith (· ++ ·) gaps (name :: arguments)) →
        parseLine line = .ok (some (.call name arguments)) := by
  refine ⟨fun _ => Text.words_eq_iff, fun _ => parseLine_congr, parseLine_eq_none_iff, fun _ => parseLine_eq_some_iff,
    fun head rest hwords hnone => ?_, ?_⟩
  · rw [parseLine_of_words hwords]
    -- words that the grammar does not have: a known head is used wrongly, any other is unknown
    rcases ofWords_of_not_reads hnone with ⟨form, hform, herror⟩ | ⟨hplain, hform, herror⟩
    · exact .inl ⟨form, hform, by rw [herror]; rfl⟩
    · exact .inr ⟨hplain, hform, by rw [herror]; rfl⟩
  · rintro name arguments gaps hname harguments hlength hgaps rfl
    exact parseLine_call hname harguments hlength hgaps

example : parseLine " TICK +7 " = .ok (some (.tick 7)) := by decide +kernel

/-- A command is called with one argument after an ideographic space and a tab. -/
theorem lines_read_by_grammar_call : parseLine "call\u3000greet\tworld" = .ok (some (.call "greet" ["world"])) := by
  obtain ⟨-, -, -, -, -, hcall⟩ := lines_read_by_grammar "call\u3000greet\tworld"
  exact hcall "greet" ["world"] ["\u3000", "\t"] (Guest.Library.registrable_iff.mpr (by simp [isBlank]))
    (by simp [isBlank]) rfl (by simp [isBlank]) (by decide +kernel)

end ScriptHost.Instruction
