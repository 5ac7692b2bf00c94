import VeritasSync.Storage.GlobMeaning

/-
  How the text of a class of a glob is read.  Between brackets
  the terms that were read before do not matter, and nothing
  but `]` leads out again.

  Main declarations:
    * `StdRegex.Outcome`, `StdRegex.HasOutcome`
    * `FileFilter.readClass`, `FileFilter.read_class`
    * `FileFilter.FaithfulClass`
    * `FileFilter.readAccepts_eq_classMeaning_iff`
-/

namespace VeritasSync

namespace StdRegex

------------------------------------------------------------
-- Between Brackets
------------------------------------------------------------

def Mode.Between : Mode → Prop
| .bracketStart => True
| .bracket _ => True
| .bracketEscaped _ => True
| .bracketOpened _ => True
| .name _ _ _ => True
| .nameEnd _ _ _ => True
| _ => False

/-
  What some text does to a reader between brackets: it stays
  there, unless it fails, or it closes them.
-/
inductive Outcome where
| stays : Option Mode → Outcome
| closes : (Char → Bool) → Outcome

namespace Outcome

def apply
    (outcome : Outcome)
    (terms : List (Regex Char))
    (outer : List (List (Regex Char))) : Option Reader :=
  match outcome with
  | stays mode => mode.map (fun mode => ⟨mode, terms, outer⟩)
  | closes p => some ⟨.plain, .letter p :: terms, outer⟩

def Sound : Outcome → Prop
| stays mode => ∀ m ∈ mode, m.Between
| closes _ => True

def Stays : Outcome → Prop
| stays _ => True
| closes _ => False

end Outcome

/- The outcome does not depend on what was read before. -/
def HasOutcome
    (mode : Mode)
    (text : List Char)
    (outcome : Outcome) : Prop :=
  outcome.Sound ∧ ∀ terms outer,
    text.foldlM Reader.step ⟨mode, terms, outer⟩ =
      outcome.apply terms outer

/- Something that happens whatever was read before. -/
def Happens
    (c : Char)
    (step : List (Regex Char) → List (List (Regex Char)) →
      Option Reader) : Prop :=
  ∃ outcome : Outcome, outcome.Sound ∧
    (c ≠ ']' → outcome.Stays) ∧
    ∀ terms outer, step terms outer =
      outcome.apply terms outer

theorem happens_goto
    (c : Char)
    (mode : Mode)
    {next : Mode}
    (hNext : next.Between) :
    Happens c (fun terms outer =>
      some (Reader.goto ⟨mode, terms, outer⟩ next)) := by
  refine ⟨.stays (some next), ?_, fun _ => trivial,
    fun _ _ => rfl⟩
  intro m hMem
  rw [← Option.some.inj hMem]
  exact hNext

theorem happens_take
    (c : Char)
    (mode : Mode)
    (taken : Option Bracket) :
    Happens c (fun terms outer => taken.map (fun b =>
      Reader.goto ⟨mode, terms, outer⟩ (.bracket b))) := by
  refine ⟨.stays (taken.map .bracket), ?_, fun _ => trivial,
    ?_⟩
  · intro m hMem
    rcases Option.map_eq_some_iff.mp hMem with ⟨_, _, rfl⟩
    trivial
  · intro terms outer
    rw [Outcome.apply, Option.map_map]
    rfl

theorem happens_inBracket
    (mode : Mode)
    (b : Bracket)
    (c : Char) :
    Happens c (fun terms outer =>
      Reader.inBracket ⟨mode, terms, outer⟩ b c) := by
  unfold Reader.inBracket
  split
  next =>
    refine ⟨.closes (fun d => b.accepts d != b.negated),
      trivial, fun hNot => absurd rfl hNot, ?_⟩
    exact fun _ _ => rfl
  next => exact happens_goto _ mode trivial
  next => exact happens_goto _ mode trivial
  next =>
    split
    next => exact happens_goto _ mode trivial
    next => exact happens_take _ mode (b.take '-')
  next => exact happens_take _ mode (b.take c)

theorem happens_step
    {mode : Mode}
    (hBetween : mode.Between)
    (c : Char) :
    Happens c (fun terms outer =>
      Reader.step ⟨mode, terms, outer⟩ c) := by
  unfold Reader.step
  cases mode with
  | start => exact hBetween.elim
  | plain => exact hBetween.elim
  | escaped => exact hBetween.elim
  | ended => exact hBetween.elim
  | bracketStart =>
      dsimp only
      split
      next => exact happens_goto _ _ trivial
      next => exact happens_inBracket _ _ c
  | bracket b => exact happens_inBracket _ b c
  | bracketEscaped b => exact happens_take c _ (b.take c)
  | bracketOpened b =>
      dsimp only
      split
      next => exact happens_goto _ _ trivial
      next =>
        cases b.take '[' with
        | none =>
            refine ⟨.stays none, ?_, fun _ => trivial,
              fun _ _ => rfl⟩
            exact fun _ hMem => nomatch hMem
        | some b => exact happens_inBracket _ b c
  | name b kind name =>
      dsimp only
      split
      next => exact happens_goto _ _ trivial
      next => exact happens_goto _ _ trivial
  | nameEnd b kind name =>
      dsimp only
      split
      next =>
        exact happens_take c _ (b.takeNamed kind name)
      next =>
        split
        next => exact happens_goto _ _ trivial
        next => exact happens_goto _ _ trivial

/- Text without `]` does not lead out. -/
theorem hasOutcome_of_no_close
    {text : List Char}
    (hText : ']' ∉ text)
    {mode : Mode}
    (hBetween : mode.Between) :
    ∃ stays, HasOutcome mode text (.stays stays) := by
  induction text generalizing mode with
  | nil =>
      refine ⟨some mode, ?_, fun _ _ => rfl⟩
      intro m hMem
      rw [← Option.some.inj hMem]
      exact hBetween
  | cons c rest ih =>
      rw [List.mem_cons, not_or] at hText
      rcases happens_step hBetween c with
        ⟨outcome, hSound, hStays, hStep⟩
      have hStays := hStays (Ne.symm hText.1)
      cases outcome with
      | closes p => exact hStays.elim
      | stays next =>
          cases next with
          | none =>
              refine ⟨none, ?_, ?_⟩
              · exact fun _ hMem => nomatch hMem
              · intro terms outer
                rw [List.foldlM_cons,
                  show Reader.step ⟨mode, terms, outer⟩ c = _
                    from hStep terms outer]
                rfl
          | some next =>
              rcases ih hText.2 (hSound next rfl) with
                ⟨stays, hSoundRest, hRest⟩
              refine ⟨stays, hSoundRest, ?_⟩
              intro terms outer
              rw [List.foldlM_cons,
                show Reader.step ⟨mode, terms, outer⟩ c = _
                  from hStep terms outer]
              exact hRest terms outer

/- With `]` at the end it may. -/
theorem hasOutcome_of_close
    {text : List Char}
    (hText : ']' ∉ text)
    {mode : Mode}
    (hBetween : mode.Between) :
    ∃ outcome, HasOutcome mode (text ++ [']']) outcome := by
  rcases hasOutcome_of_no_close hText hBetween with
    ⟨stays, hSound, hStays⟩
  cases stays with
  | none =>
      refine ⟨.stays none, hSound, ?_⟩
      intro terms outer
      rw [List.foldlM_append, hStays]
      rfl
  | some next =>
      rcases happens_step (hSound next rfl) ']' with
        ⟨outcome, hSoundLast, _, hLast⟩
      refine ⟨outcome, hSoundLast, ?_⟩
      intro terms outer
      rw [List.foldlM_append, hStays]
      refine Eq.trans ?_ (hLast terms outer)
      exact bind_pure (Reader.step ⟨next, terms, outer⟩ ']')

------------------------------------------------------------
-- The Characters Of A Class
------------------------------------------------------------

/- `[` and one of these begin the name of a class. -/
def OpensName (c : Char) : Prop :=
  c = ':' ∨ c = '.' ∨ c = '='

instance (c : Char) : Decidable (OpensName c) :=
  inferInstanceAs (Decidable (c = ':' ∨ c = '.' ∨ c = '='))

def hasName : List Char → Bool
| c :: d :: rest =>
    decide (c = '[' ∧ OpensName d) || hasName (d :: rest)
| _ => false

/- One more character that does not begin a name. -/
def Bracket.read
    (b : Bracket)
    (c : Char) : Option Bracket :=
  if c = '-' ∧ b.last.isSome = true ∧ b.dash = false then
    some { b with dash := true }
  else
    b.take c

/- The mode of the reader does not matter. -/
theorem inBracket_mode
    (mode mode' : Mode)
    (terms : List (Regex Char))
    (outer : List (List (Regex Char)))
    (b : Bracket)
    (c : Char) :
    Reader.inBracket ⟨mode, terms, outer⟩ b c =
      Reader.inBracket ⟨mode', terms, outer⟩ b c := by
  unfold Reader.inBracket
  split
  all_goals rfl

section Reading

variable
  {terms : List (Regex Char)}
  {outer : List (List (Regex Char))}

theorem inBracket_eq
    {mode : Mode}
    {b : Bracket}
    {c : Char}
    (hOther : c ≠ ']' ∧ c ≠ '\\' ∧ c ≠ '[') :
    Reader.inBracket ⟨mode, terms, outer⟩ b c =
      (b.read c).map (fun b => ⟨.bracket b, terms, outer⟩) := by
  unfold Reader.inBracket
  split
  next => exact absurd rfl hOther.1
  next => exact absurd rfl hOther.2.1
  next => exact absurd rfl hOther.2.2
  next =>
    unfold Bracket.read
    cases b.last <;> cases b.dash <;> rfl
  next c _ _ _ hDash =>
    rw [Bracket.read, if_neg (fun hRead => hDash hRead.1)]
    rfl

theorem foldlM_bracket_cons
    {b : Bracket}
    {c : Char}
    {text : List Char}
    (hOther : c ≠ ']' ∧ c ≠ '\\')
    (hText : text ≠ [])
    (hName : ∀ d ∈ text.head?, ¬ (c = '[' ∧ OpensName d)) :
    (c :: text).foldlM Reader.step
        ⟨.bracket b, terms, outer⟩ =
      (b.read c).bind (fun b => text.foldlM Reader.step
        ⟨.bracket b, terms, outer⟩) := by
  rw [List.foldlM_cons]
  by_cases hOpen : c = '['
  · rw [hOpen]
    cases text with
    | nil => exact absurd rfl hText
    | cons d text =>
        have hPlain : ¬ (d = ':' ∨ d = '.' ∨ d = '=') :=
          fun hOpens => hName d rfl ⟨hOpen, hOpens⟩
        have hRead : b.read '[' = b.take '[' := by
          rw [Bracket.read, if_neg (fun hDash =>
            absurd hDash.1 (by decide))]
        rw [hRead]
        change (d :: text).foldlM Reader.step
          ⟨.bracketOpened b, terms, outer⟩ = _
        rw [List.foldlM_cons]
        have hStep :
            Reader.step ⟨.bracketOpened b, terms, outer⟩ d =
              (b.take '[').bind (fun b => Reader.step
                ⟨.bracket b, terms, outer⟩ d) := by
          unfold Reader.step
          dsimp only
          rw [if_neg hPlain]
          refine congrArg _ (funext fun b => ?_)
          exact inBracket_mode _ _ _ _ b d
        rw [hStep]
        cases b.take '[' with
        | none => rfl
        | some b => rfl
  · have hStep :
        Reader.step ⟨.bracket b, terms, outer⟩ c =
          (b.read c).map
            (fun b => ⟨.bracket b, terms, outer⟩) :=
      inBracket_eq ⟨hOther.1, hOther.2, hOpen⟩
    rw [hStep]
    cases b.read c with
    | none => rfl
    | some b => rfl

/- The bracket at the end begins no name. -/
theorem no_name_ahead
    {c : Char}
    {rest : List Char}
    (hName : ∀ d ∈ rest.head?, ¬ (c = '[' ∧ OpensName d)) :
    ∀ d ∈ (rest ++ [']']).head?,
      ¬ (c = '[' ∧ OpensName d) := by
  cases rest with
  | nil =>
      intro d hHead hHere
      rw [← Option.some.inj hHead] at hHere
      exact absurd hHere.2 (by decide)
  | cons d rest => exact hName

theorem hasName_cons_eq_false
    {c : Char}
    {rest : List Char}
    (hName : hasName (c :: rest) = false) :
    (∀ d ∈ rest.head?, ¬ (c = '[' ∧ OpensName d)) ∧
      hasName rest = false := by
  cases rest with
  | nil => exact ⟨nofun, rfl⟩
  | cons d rest =>
      rw [hasName, Bool.or_eq_false_iff,
        decide_eq_false_iff_not] at hName
      refine ⟨?_, hName.2⟩
      intro e hHead
      rw [← Option.some.inj hHead]
      exact hName.1

/- Without names the reader takes the characters in turn. -/
theorem foldlM_bracket
    {text : List Char}
    (hText : ']' ∉ text ∧ '\\' ∉ text)
    (hName : hasName text = false)
    (b : Bracket) :
    (text ++ [']']).foldlM Reader.step
        ⟨.bracket b, terms, outer⟩ =
      (text.foldlM Bracket.read b).map
        (fun b => ⟨.plain, b.regex :: terms, outer⟩) := by
  induction text generalizing b with
  | nil => rfl
  | cons c rest ih =>
      rw [List.mem_cons, not_or, List.mem_cons, not_or]
        at hText
      rcases hasName_cons_eq_false hName with
        ⟨hHere, hRest⟩
      rw [List.cons_append, foldlM_bracket_cons
        ⟨Ne.symm hText.1.1, Ne.symm hText.2.1⟩ (by simp)
        (no_name_ahead hHere), List.foldlM_cons]
      cases b.read c with
      | none => rfl
      | some b => exact ih ⟨hText.1.2, hText.2.2⟩ hRest b

/- In the name of a class, or at what may be its end. -/
def Mode.InName : Mode → Prop
| .name _ _ _ => True
| .nameEnd _ _ _ => True
| _ => False

theorem step_inName
    {mode : Mode}
    (hMode : mode.InName)
    {c : Char}
    (hOpen : c ≠ ']') :
    ∃ next : Mode, next.InName ∧
      Reader.step ⟨mode, terms, outer⟩ c =
        some ⟨next, terms, outer⟩ := by
  cases mode with
  | name b kind name =>
      by_cases hKind : c = kind
      · exact ⟨.nameEnd b kind name, trivial,
          if_pos hKind⟩
      · exact ⟨.name b kind (name ++ [c]), trivial,
          if_neg hKind⟩
  | nameEnd b kind name =>
      by_cases hKind : c = kind
      · exact ⟨.nameEnd b kind (name ++ [kind]), trivial,
          (if_neg hOpen).trans (if_pos hKind)⟩
      · exact ⟨.name b kind (name ++ [kind, c]), trivial,
          (if_neg hOpen).trans (if_neg hKind)⟩
  | start => exact hMode.elim
  | plain => exact hMode.elim
  | escaped => exact hMode.elim
  | bracketStart => exact hMode.elim
  | bracket b => exact hMode.elim
  | bracketEscaped b => exact hMode.elim
  | bracketOpened b => exact hMode.elim
  | ended => exact hMode.elim

/- One `]` does not end the brackets then. -/
theorem close_inName
    {mode : Mode}
    (hMode : mode.InName)
    {r : Reader}
    (hRead : Reader.step ⟨mode, terms, outer⟩ ']' = some r) :
    r.mode ≠ .plain := by
  cases mode with
  | name b kind name =>
      change (if ']' = kind then _ else _) = some r at hRead
      split at hRead
      next => rw [← Option.some.inj hRead]; nofun
      next => rw [← Option.some.inj hRead]; nofun
  | nameEnd b kind name =>
      change Option.map _ (b.takeNamed kind name) = some r
        at hRead
      rcases Option.map_eq_some_iff.mp hRead with ⟨_, _, rfl⟩
      nofun
  | start => exact hMode.elim
  | plain => exact hMode.elim
  | escaped => exact hMode.elim
  | bracketStart => exact hMode.elim
  | bracket b => exact hMode.elim
  | bracketEscaped b => exact hMode.elim
  | bracketOpened b => exact hMode.elim
  | ended => exact hMode.elim

theorem not_plain_of_inName
    {text : List Char}
    (hText : ']' ∉ text)
    {mode : Mode}
    (hMode : mode.InName)
    {r : Reader}
    (hRead : (text ++ [']']).foldlM Reader.step
      ⟨mode, terms, outer⟩ = some r) :
    r.mode ≠ .plain := by
  induction text generalizing mode with
  | nil =>
      have hLast : Reader.step ⟨mode, terms, outer⟩ ']' =
          some r := (bind_pure _).symm.trans hRead
      exact close_inName hMode hLast
  | cons c rest ih =>
      rw [List.mem_cons, not_or] at hText
      rcases step_inName hMode (Ne.symm hText.1) with
        ⟨next, hNext, hStep⟩
      rw [List.cons_append, List.foldlM_cons, hStep] at hRead
      exact ih hText.2 hNext hRead

/- A class with a name in it is not over at its `]`. -/
theorem not_plain_of_hasName
    {text : List Char}
    (hText : ']' ∉ text ∧ '\\' ∉ text)
    (hName : hasName text = true)
    {b : Bracket}
    {r : Reader}
    (hRead : (text ++ [']']).foldlM Reader.step
      ⟨.bracket b, terms, outer⟩ = some r) :
    r.mode ≠ .plain := by
  induction text generalizing b with
  | nil => cases hName
  | cons c rest ih =>
      cases rest with
      | nil => cases hName
      | cons d rest =>
          have hTail : ']' ∉ d :: rest ∧ '\\' ∉ d :: rest :=
            ⟨fun hMem => hText.1 (List.mem_cons_of_mem _ hMem),
              fun hMem =>
                hText.2 (List.mem_cons_of_mem _ hMem)⟩
          by_cases hHere : c = '[' ∧ OpensName d
          · have hOpens : Reader.step
                ⟨.bracketOpened b, terms, outer⟩ d =
                  some ⟨.name b d [], terms, outer⟩ :=
              if_pos hHere.2
            rw [hHere.1] at hRead
            change (d :: (rest ++ [']'])).foldlM Reader.step
              ⟨.bracketOpened b, terms, outer⟩ = some r
              at hRead
            rw [List.foldlM_cons, hOpens] at hRead
            exact not_plain_of_inName
              (fun hMem =>
                hTail.1 (List.mem_cons_of_mem _ hMem))
              (show Mode.InName (.name b d []) from trivial)
              hRead
          · have hLater : hasName (d :: rest) = true := by
              rw [hasName, Bool.or_eq_true,
                decide_eq_true_eq] at hName
              exact hName.resolve_left hHere
            have hAhead : ∀ e ∈ (d :: rest).head?,
                ¬ (c = '[' ∧ OpensName e) := by
              intro e hHead
              rw [← Option.some.inj hHead]
              exact hHere
            have hOther : c ≠ ']' ∧ c ≠ '\\' :=
              ⟨fun hSame => hText.1 (hSame ▸ List.mem_cons_self),
                fun hSame =>
                  hText.2 (hSame ▸ List.mem_cons_self)⟩
            rw [List.cons_append, foldlM_bracket_cons hOther
              (by simp) (no_name_ahead hAhead)] at hRead
            rcases Option.bind_eq_some_iff.mp hRead with
              ⟨next, _, hRest⟩
            exact ih hTail hLater hRest

end Reading

end StdRegex

namespace FileFilter

open StdRegex

------------------------------------------------------------
-- Classes
------------------------------------------------------------

/-
  What a class of a glob is read as, when its text is one
  bracket expression from the first to the last character.
-/
def readClass (inside : List Char) : Option (Char → Bool) :=
  match (bracketText inside).foldlM Reader.step
      ⟨.plain, [], []⟩ with
  | some ⟨.plain, [.letter p], []⟩ => some p
  | _ => none

def readAccepts
    (inside : List Char)
    (c : Char) : Bool :=
  (readClass inside).any (fun p => p c)

theorem escapeBracket_of_no_backslash
    {inside : List Char}
    (hInside : '\\' ∉ inside) :
    escapeBracket inside = inside := by
  induction inside with
  | nil => rfl
  | cons c rest ih =>
      rw [List.mem_cons, not_or] at hInside
      rw [escapeBracket, ih hInside.2]
      exact fun hSame => hInside.1 hSame.symm

/- The text of a class has one `]`, at its end. -/
theorem bracketText_eq
    {inside : List Char}
    (hInside : ']' ∉ inside ∧ '\\' ∉ inside) :
    ∃ text, ']' ∉ text ∧
      bracketText inside = '[' :: (text ++ [']']) := by
  unfold bracketText
  split
  next rest =>
    have hRest : ']' ∉ rest ∧ '\\' ∉ rest :=
      ⟨fun hMem => hInside.1 (List.mem_cons_of_mem _ hMem),
        fun hMem => hInside.2 (List.mem_cons_of_mem _ hMem)⟩
    refine ⟨'^' :: rest, ?_, ?_⟩
    · simpa using hRest.1
    · rw [escapeBracket_of_no_backslash hRest.2]
      rfl
  next =>
    refine ⟨inside, hInside.1, ?_⟩
    rw [escapeBracket_of_no_backslash hInside.2]
    rfl

/-
  A class is read as one term, or the reader fails, or it is
  still between brackets after the class.
-/
theorem read_class
    {inside : List Char}
    (hInside : ']' ∉ inside ∧ '\\' ∉ inside) :
    (∃ p, readClass inside = some p ∧
      ∀ terms outer, (bracketText inside).foldlM Reader.step
        ⟨.plain, terms, outer⟩ =
          some ⟨.plain, .letter p :: terms, outer⟩) ∨
    (readClass inside = none ∧
      ∃ mode : Option Mode, (∀ m ∈ mode, m.Between) ∧
        ∀ terms outer, (bracketText inside).foldlM Reader.step
          ⟨.plain, terms, outer⟩ =
            mode.map (fun m => ⟨m, terms, outer⟩)) := by
  rcases bracketText_eq hInside with ⟨text, hText, hEq⟩
  rcases hasOutcome_of_close hText
      (show Mode.Between .bracketStart from trivial) with
    ⟨outcome, hSound, hApply⟩
  have hRead : ∀ terms outer,
      (bracketText inside).foldlM Reader.step
        ⟨.plain, terms, outer⟩ =
          outcome.apply terms outer := by
    intro terms outer
    rw [hEq, List.foldlM_cons]
    exact hApply terms outer
  cases outcome with
  | closes p =>
      left
      refine ⟨p, ?_, hRead⟩
      rw [readClass, hRead]
      rfl
  | stays mode =>
      right
      refine ⟨?_, mode, hSound, hRead⟩
      rw [readClass, hRead]
      cases mode with
      | none => rfl
      | some m => cases m <;> rfl

------------------------------------------------------------
-- The Members Of A Class
------------------------------------------------------------

/- A range that runs backwards cannot be read. -/
def forward : List Char → Bool
| low :: '-' :: high :: rest =>
    decide (low ≤ high) && forward rest
| _ :: rest => forward rest
| [] => true

/- A bracket that accepts some more characters. -/
structure Extends
    (b : Bracket)
    (more : Char → Bool)
    (b' : Bracket) : Prop where
  negated : b'.negated = b.negated
  accepts : ∀ c, b'.accepts c = (b.accepts c || more c)

theorem take_eq_of_no_dash
    {b : Bracket}
    (hDash : b.dash = false)
    (c : Char) :
    b.take c =
      some { b with members := b.accepts, last := some c } := by
  unfold Bracket.take
  rw [hDash]

theorem extends_take
    {b : Bracket}
    (hDash : b.dash = false)
    (c : Char) :
    Extends b (fun d => d == c)
      { b with members := b.accepts, last := some c } where
  negated := rfl
  accepts := by
    intro d
    simp [Bracket.accepts, hDash, Bool.beq_comm (a := d)]

/- `low-high`, after the bracket was read so far. -/
theorem foldlM_range
    {b : Bracket}
    (hDash : b.dash = false)
    {low high : Char}
    (hLow : low = '-' → b.last = none)
    (rest : List Char) :
    (low :: '-' :: high :: rest).foldlM Bracket.read b =
      if low ≤ high then
        rest.foldlM Bracket.read
          ⟨b.negated,
            fun c => b.accepts c || between low high c,
            none, false⟩
      else
        none := by
  have hReadLow : b.read low =
      some ⟨b.negated, b.accepts, some low, false⟩ := by
    rw [Bracket.read, if_neg, take_eq_of_no_dash hDash,
      hDash]
    rintro ⟨hSame, hSome, _⟩
    rw [hLow hSame] at hSome
    cases hSome
  rw [List.foldlM_cons, hReadLow]
  change ('-' :: high :: rest).foldlM Bracket.read
    ⟨b.negated, b.accepts, some low, false⟩ = _
  change (high :: rest).foldlM Bracket.read
    ⟨b.negated, b.accepts, some low, true⟩ = _
  rw [List.foldlM_cons]
  have hReadHigh : Bracket.read
      ⟨b.negated, b.accepts, some low, true⟩ high =
        if low ≤ high then
          some ⟨b.negated,
            fun c => b.accepts c || between low high c,
            none, false⟩
        else
          none := by
    simp [Bracket.read, Bracket.take]
  rw [hReadHigh]
  split
  next => rfl
  next => rfl

/- One range or one character, and then the rest. -/
theorem foldlM_read_cons
    {text rest : List Char}
    {b next : Bracket}
    {more : Char → Bool}
    (hRead : text.foldlM Bracket.read b =
      rest.foldlM Bracket.read next)
    (hForward : forward text = forward rest)
    (hMembers : ∀ c, classMembers text c =
      (more c || classMembers rest c))
    (hNext : Extends b more next)
    (hRest :
      if forward rest then
        ∃ b', rest.foldlM Bracket.read next = some b' ∧
          Extends next (classMembers rest) b'
      else
        rest.foldlM Bracket.read next = none) :
    if forward text then
      ∃ b', text.foldlM Bracket.read b = some b' ∧
        Extends b (classMembers text) b'
    else
      text.foldlM Bracket.read b = none := by
  rw [hForward, hRead]
  split
  next hOrdered =>
    rw [if_pos hOrdered] at hRest
    rcases hRest with ⟨b', hEnd, hExtends⟩
    refine ⟨b', hEnd, hExtends.negated.trans hNext.negated,
      ?_⟩
    intro c
    rw [hExtends.accepts, hNext.accepts, hMembers,
      Bool.or_assoc]
  next hBackward =>
    rw [if_neg hBackward] at hRest
    exact hRest

/- Where no range begins, a dash can only be the last. -/
theorem head?_ne_dash_or_eq
    {rest : List Char}
    (hNoRange : ∀ high others,
      rest = '-' :: high :: others → False) :
    rest.head? ≠ some '-' ∨ rest = ['-'] := by
  by_cases hHead : rest.head? = some '-'
  · right
    cases rest with
    | nil => cases hHead
    | cons d rest =>
        rw [Option.some.inj hHead]
        cases rest with
        | nil => rfl
        | cons high rest =>
            refine absurd ?_ (hNoRange high rest)
            rw [Option.some.inj hHead]
  · exact Or.inl hHead

/- The members are read as the glob means them. -/
theorem foldlM_read
    {text : List Char}
    {b : Bracket}
    (hDash : b.dash = false)
    (hLast : b.last = none ∨ text.head? ≠ some '-' ∨
      text = ['-']) :
    if forward text then
      ∃ b', text.foldlM Bracket.read b = some b' ∧
        Extends b (classMembers text) b'
    else
      text.foldlM Bracket.read b = none := by
  induction text using forward.induct generalizing b with
  | case1 low high rest ih =>
      have hLow : low = '-' → b.last = none := by
        intro hSame
        rcases hLast with hNone | hHead | hAlone
        · exact hNone
        · exact absurd (congrArg some hSame) hHead
        · cases hAlone
      have hRead := @foldlM_range b hDash low high hLow rest
      by_cases hOrder : low ≤ high
      · rw [if_pos hOrder] at hRead
        refine foldlM_read_cons hRead ?_ (fun _ => rfl)
          ⟨rfl, fun c => ?_⟩ (ih rfl (Or.inl rfl))
        · rw [forward, decide_eq_true hOrder, Bool.true_and]
        · simp [Bracket.accepts]
      · rw [hRead, if_neg hOrder, forward,
          decide_eq_false hOrder, Bool.false_and]
        exact rfl
  | case2 c rest hNoRange ih =>
      have hForward : forward (c :: rest) = forward rest := by
        rw [forward]
        exact hNoRange
      have hMembers : ∀ d, classMembers (c :: rest) d =
          (d == c || classMembers rest d) := by
        intro d
        rw [classMembers]
        exact hNoRange
      by_cases hOpen : c = '-' ∧ b.last.isSome = true
      · -- A dash at the end of the class.
        have hAlone : c :: rest = ['-'] := by
          rcases hLast with hNone | hHead | hAlone
          · rw [hNone] at hOpen
            cases hOpen.2
          · exact absurd (congrArg some hOpen.1) hHead
          · exact hAlone
        rw [hForward]
        rw [List.cons.injEq] at hAlone
        rcases hAlone with ⟨rfl, rfl⟩
        refine ⟨{ b with dash := true }, ?_, rfl, ?_⟩
        · change (Bracket.read b '-').bind some = _
          rw [Bracket.read, if_pos ⟨rfl, hOpen.2, hDash⟩]
          rfl
        · intro d
          rw [hMembers]
          simp [Bracket.accepts, hDash, classMembers]
      · have hTake : b.read c =
            some { b with
              members := b.accepts, last := some c } := by
          rw [Bracket.read, if_neg, take_eq_of_no_dash hDash]
          exact fun hAll => hOpen ⟨hAll.1, hAll.2.1⟩
        refine foldlM_read_cons ?_ hForward hMembers
          (extends_take hDash c)
          (ih hDash (Or.inr (head?_ne_dash_or_eq hNoRange)))
        rw [List.foldlM_cons, hTake]
        rfl
  | case3 =>
      refine ⟨b, rfl, rfl, ?_⟩
      intro c
      rw [classMembers, Bool.or_false]

/-
  What a class is read as after its negation.  Its `]` ends it
  if no name was begun.
-/
theorem read_opened
    {text : List Char}
    (hText : ']' ∉ text ∧ '\\' ∉ text)
    (negated : Bool) :
    if hasName text = false ∧ forward text = true then
      ∃ p, (text ++ [']']).foldlM Reader.step
          ⟨.bracket (.opened negated), [], []⟩ =
            some ⟨.plain, [.letter p], []⟩ ∧
        ∀ c, p c = (classMembers text c != negated)
    else
      ∀ r, (text ++ [']']).foldlM Reader.step
          ⟨.bracket (.opened negated), [], []⟩ = some r →
        r.mode ≠ .plain := by
  have hMembers := @foldlM_read text (.opened negated) rfl
    (Or.inl rfl)
  cases hName : hasName text with
  | true =>
      rw [if_neg (fun hBoth => nomatch hBoth.1)]
      exact fun r => not_plain_of_hasName hText hName
  | false =>
      rw [foldlM_bracket hText hName]
      split
      next hLegible =>
        rw [if_pos hLegible.2] at hMembers
        rcases hMembers with ⟨b, hRead, hExtends⟩
        refine ⟨fun c => b.accepts c != b.negated, ?_, ?_⟩
        · rw [hRead]
          rfl
        · intro c
          change (b.accepts c != b.negated) = _
          rw [hExtends.accepts, hExtends.negated]
          rfl
      next hIllegible =>
        rw [if_neg (fun hForward =>
          hIllegible ⟨rfl, hForward⟩)] at hMembers
        rw [hMembers]
        exact fun r hRead => nomatch hRead

/- A class without `^` at its front is read as it stands. -/
theorem foldlM_bracketStart
    {text : List Char}
    (hHead : text.head? ≠ some '^') :
    (text ++ [']']).foldlM Reader.step
        ⟨.bracketStart, [], []⟩ =
      (text ++ [']']).foldlM Reader.step
        ⟨.bracket (.opened false), [], []⟩ := by
  have hStep : ∀ c, c ≠ '^' →
      Reader.step ⟨.bracketStart, [], []⟩ c =
        Reader.step ⟨.bracket (.opened false), [], []⟩ c := by
    intro c hOther
    exact (if_neg hOther).trans (inBracket_mode _ _ _ _ _ c)
  cases text with
  | nil => rfl
  | cons c rest =>
      rw [List.cons_append, List.foldlM_cons,
        List.foldlM_cons, hStep]
      exact fun hSame => hHead (congrArg some hSame)

/- The reader sees what is left after the negation. -/
theorem foldlM_bracketText
    {inside : List Char}
    (hInside : '\\' ∉ inside) :
    (bracketText inside).foldlM Reader.step
        ⟨.plain, [], []⟩ =
      ((classBody inside).2 ++ [']']).foldlM Reader.step
        ⟨.bracket (.opened (classBody inside).1), [], []⟩ := by
  unfold bracketText
  split
  next rest =>
    rw [escapeBracket_of_no_backslash (fun hMem =>
      hInside (List.mem_cons_of_mem _ hMem))]
    rfl
  next hBang =>
    rw [escapeBracket_of_no_backslash hInside]
    unfold classBody
    split
    next rest => exact absurd rfl (hBang rest)
    next rest => rfl
    next hHat =>
      rw [← foldlM_bracketStart]
      · rfl
      · cases inside with
        | nil => nofun
        | cons c rest =>
            intro hHead
            exact hHat rest (by rw [Option.some.inj hHead])

theorem classBody_subset
    {inside : List Char}
    {c : Char}
    (hMem : c ∈ (classBody inside).2) :
    c ∈ inside := by
  unfold classBody at hMem
  split at hMem
  next => exact List.mem_cons_of_mem _ hMem
  next => exact List.mem_cons_of_mem _ hMem
  next => exact hMem

/-
  No name is begun in the class, no range runs backwards, and
  a slash is listed just if the class is negated.
-/
def FaithfulClass (inside : List Char) : Prop :=
  let body := (classBody inside).2
  (hasName body = false ∧ forward body = true) ∧
    classMembers body '/' = (classBody inside).1

instance (inside : List Char) :
    Decidable (FaithfulClass inside) :=
  inferInstanceAs (Decidable (_ ∧ _))

/- Such a class is read as it is meant, and no other is. -/
theorem readAccepts_eq_classMeaning_iff
    {inside : List Char}
    (hInside : ']' ∉ inside ∧ '\\' ∉ inside)
    {among : Char → Prop}
    (hSlash : among '/') :
    ((readClass inside).isSome = true ∧ ∀ c, among c →
      readAccepts inside c = classMeaning inside c) ↔
        FaithfulClass inside := by
  have hBody : ']' ∉ (classBody inside).2 ∧
      '\\' ∉ (classBody inside).2 :=
    ⟨fun hMem => hInside.1 (classBody_subset hMem),
      fun hMem => hInside.2 (classBody_subset hMem)⟩
  have hOpened := read_opened hBody (classBody inside).1
  rw [← foldlM_bracketText hInside.2] at hOpened
  split at hOpened
  next hLegible =>
    rcases hOpened with ⟨p, hRead, hAccepts⟩
    have hClass : readClass inside = some p := by
      rw [readClass, hRead]
    have hReads : ∀ c, readAccepts inside c =
        (classMembers (classBody inside).2 c !=
          (classBody inside).1) := by
      intro c
      rw [readAccepts, hClass]
      exact hAccepts c
    constructor
    · rintro ⟨_, hSame⟩
      refine ⟨hLegible, ?_⟩
      have hHere := hSame '/' hSlash
      rw [hReads] at hHere
      simpa [classMeaning] using hHere
    · intro hFaithful
      refine ⟨by rw [hClass]; rfl, ?_⟩
      intro c _
      rw [hReads, classMeaning]
      by_cases hHere : c = '/'
      · rw [hHere, hFaithful.2]
        simp
      · simp [hHere]
  next hIllegible =>
    refine iff_of_false ?_
      (fun hFaithful => hIllegible hFaithful.1)
    rintro ⟨hRead, _⟩
    rw [readClass] at hRead
    split at hRead
    next p hPlain => exact hOpened _ hPlain rfl
    next => cases hRead

theorem readAccepts_eq_of_faithful
    {inside : List Char}
    (hInside : ']' ∉ inside ∧ '\\' ∉ inside)
    (hFaithful : FaithfulClass inside) :
    (readClass inside).isSome = true ∧ ∀ c,
      readAccepts inside c = classMeaning inside c := by
  have hAll := @readAccepts_eq_classMeaning_iff inside
    hInside (fun _ => True) trivial
  rcases hAll.mpr hFaithful with ⟨hRead, hSame⟩
  exact ⟨hRead, fun c => hSame c trivial⟩

end FileFilter

end VeritasSync
