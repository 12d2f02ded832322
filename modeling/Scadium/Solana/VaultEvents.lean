/-
Scadium.Solana.VaultEvents — events read from the logs of a transaction
(`solana/vault-events.ts`), and the logs a tree of invocations leaves.

A frame opens with its `invoke` line and closes with `success` or `failed`;
what it logs, and the frames it invokes, stand in between. Every line is
`Program`, one word and the rest, and a reader only has the text: a program
chooses what stands behind `Program log:`.

The second part is about which logs are read as they were written. The reader
goes wrong at a line that a frame logs itself and that reads like the opening
or the end of a frame: `Program log: invoke [1]`, say, or a log, a payload or
a returned address that begins with `success`. Where no line is misread, the
stack of the reader is the frames around it. And one misread line is enough:
the payload that is logged behind it is lost.
-/
import Scadium.Fair.Seeds
import Scadium.Lib.Bytes

namespace Scadium.Solana

open Scadium.Lib
open Scadium.Fair (isWhite)

abbrev Text := List Char

/-! ## The words of a log -/

/-- "Program " -/
def PROGRAM : Text := ['P', 'r', 'o', 'g', 'r', 'a', 'm', ' ']
/-- "invoke [" -/
def INVOKE : Text := ['i', 'n', 'v', 'o', 'k', 'e', ' ', '[']
def SUCCESS : Text := ['s', 'u', 'c', 'c', 'e', 's', 's']
def FAILED : Text := ['f', 'a', 'i', 'l', 'e', 'd']
def LOG : Text := ['l', 'o', 'g', ':']
def DATA : Text := ['d', 'a', 't', 'a', ':']
def RETURN : Text := ['r', 'e', 't', 'u', 'r', 'n', ':']
/-- "consumed " -/
def CONSUMED : Text := ['c', 'o', 'n', 's', 'u', 'm', 'e', 'd', ' ']

/-- `Program <word> <rest>` -/
def entry (word rest : Text) : Text := PROGRAM ++ (word ++ ' ' :: rest)

/-! ## The reader -/

/-- What follows a prefix. -/
def after (start text : Text) : Option Text :=
  if start.isPrefixOf text then some (text.drop start.length) else none

/-- `invoke \[\d+\]$` -/
def isInvoke (rest : Text) : Bool :=
  match after INVOKE rest with
  | some index =>
      index.getLast? == some ']' && !index.dropLast.isEmpty && index.dropLast.all Char.isDigit
  | none => false

/-- `(?:success|failed)` -/
def isEnd (rest : Text) : Bool :=
  SUCCESS.isPrefixOf rest || FAILED.isPrefixOf rest

/-- `^Program (\S+) ` with what follows: the word has at least one character,
and goes on up to the blank. -/
def splitWord (line : Text) : Option (Text × Text) :=
  match after PROGRAM line with
  | some text =>
      let word := text.takeWhile fun c => !isWhite c
      match after [' '] (text.drop word.length) with
      | some rest => if word.isEmpty then none else some (word, rest)
      | none => none
  | none => none

/-- `/^Program (\S+) invoke \[\d+\]$/` -/
def invoked (line : Text) : Option Text :=
  match splitWord line with
  | some (word, rest) => if isInvoke rest then some word else none
  | none => none

/-- `/^Program \S+ (?:success|failed)/` -/
def ended (line : Text) : Bool :=
  match splitWord line with
  | some (_, rest) => isEnd rest
  | none => false

/-- The loop over the lines, with the stack of frames, innermost first. -/
def scan (programId : Text) : (stack : List Text) → List Text → List (List UInt8)
  | _, [] => []
  | stack, line :: lines =>
      match invoked line with
      | some program => scan programId (program :: stack) lines
      | none =>
          if ended line then scan programId stack.tail lines
          else
            -- `line.startsWith('Program data: ')`
            match after (entry DATA []) line with
            | none => scan programId stack lines
            | some text =>
                if stack.head? = some programId then
                  Base64.decode text :: scan programId stack lines
                else scan programId stack lines

def programScopedEventPayloads (logMessages : Option (List Text)) (programId : Option Text) :
    List (List UInt8) :=
  match logMessages, programId with
  | some lines, some programId => if programId.isEmpty then [] else scan programId [] lines
  | _, _ => []

/-! ## What is logged -/

def base58 : Text := "123456789ABCDEFGHJKLMNPQRSTUVWXYZabcdefghijkmnopqrstuvwxyz".toList

/-- The address of a program. -/
structure ProgramId where
  text : Text
  ne_nil : text ≠ []
  chars : ∀ c ∈ text, c ∈ base58
  deriving DecidableEq

/-- An address whose characters were checked. -/
def ProgramId.ofAll (text : Text) (hne : text ≠ []) (h : text.all base58.contains = true) :
    ProgramId :=
  ⟨text, hne, fun c hc => by simpa using List.all_eq_true.mp h c hc⟩

/-- What a frame logs itself. -/
inductive Line where
  | log (text : Text)
  | data (payload : List UInt8)
  | consumed (program : ProgramId) (used available : Nat)
  | returned (program : ProgramId) (payload : List UInt8)

inductive Ending where
  | success
  | failed (reason : Text)

/-- Lines and frames, in the order in which they are logged. -/
inductive Forest where
  | nil
  | line (l : Line) (rest : Forest)
  | frame (program : ProgramId) (body : Forest) (ending : Ending) (rest : Forest)

namespace Line

def word : Line → Text
  | log _ => LOG
  | data _ => DATA
  | consumed program _ _ => program.text
  | returned _ _ => RETURN

def rest : Line → Text
  | log text => text
  | data payload => Base64.encode payload
  | consumed _ used available =>
      CONSUMED ++ s!"{used} of {available} compute units".toList
  | returned program payload => program.text ++ ' ' :: Base64.encode payload

def text (l : Line) : Text := entry l.word l.rest

/-- What it says of the program's events. -/
def payload : Line → Option (List UInt8)
  | data payload => some payload
  | _ => none

/-- The reader takes it for the line of another frame, or for the end of this one. -/
def Misread (l : Line) : Prop := isInvoke l.rest = true ∨ isEnd l.rest = true

end Line

def Ending.rest : Ending → Text
  | success => SUCCESS
  | failed reason => FAILED ++ ':' :: ' ' :: reason

def invokeRest (depth : Nat) : Text := INVOKE ++ ((toString depth).toList ++ [']'])

namespace Forest

/-- The log lines, of frames at a depth. -/
def flatten (depth : Nat) : Forest → List Text
  | nil => []
  | line l rest => l.text :: flatten depth rest
  | frame program body ending rest =>
      entry program.text (invokeRest depth) :: (flatten (depth + 1) body ++
        entry program.text ending.rest :: flatten depth rest)

/-- The payloads a program emits itself; `current` is the frame around. -/
def emitted (id : ProgramId) (current : Option ProgramId) : Forest → List (List UInt8)
  | nil => []
  | line l rest =>
      (if current = some id then l.payload.toList else []) ++ emitted id current rest
  | frame program body _ rest => emitted id (some program) body ++ emitted id current rest

/-- All lines that are logged in it. -/
def lines : Forest → List Line
  | nil => []
  | line l rest => l :: lines rest
  | frame _ body _ rest => lines body ++ lines rest

end Forest

/-! ## Reading one line -/

theorem after_append (start text : Text) : after start (start ++ text) = some text := by
  simp [after]

theorem eq_append_of_after {start text rest : Text} (h : after start text = some rest) :
    text = start ++ rest := by
  unfold after at h
  split at h
  · rename_i hprefix
    cases h
    obtain ⟨t, rfl⟩ := List.isPrefixOf_iff_prefix.mp hprefix
    simp
  · cases h

/-- A word without blanks, of one character at least. -/
structure Word (w : Text) : Prop where
  ne_nil : w ≠ []
  clean : ∀ c ∈ w, isWhite c = false

theorem splitWord_entry {w : Text} (hw : Word w) (rest : Text) :
    splitWord (entry w rest) = some (w, rest) := by
  have hclean : ∀ c ∈ w, (!isWhite c) = true := by
    intro c hc
    simp [hw.clean c hc]
  have hblank : (!isWhite ' ') = false := by decide
  have hword : (w ++ ' ' :: rest).takeWhile (fun c => !isWhite c) = w := by
    rw [List.takeWhile_append_of_pos hclean, List.takeWhile_cons_of_neg (by simp [hblank]),
      List.append_nil]
  have hrest : after [' '] (' ' :: rest) = some rest := after_append [' '] rest
  simp [splitWord, entry, after_append, hword, hrest, hw.ne_nil]

theorem invoked_entry {w : Text} (hw : Word w) (rest : Text) :
    invoked (entry w rest) = if isInvoke rest then some w else none := by
  simp [invoked, splitWord_entry hw]

theorem ended_entry {w : Text} (hw : Word w) (rest : Text) :
    ended (entry w rest) = isEnd rest := by
  simp [ended, splitWord_entry hw]

theorem entry_inj {w w' rest rest' : Text} (hw : Word w) (hw' : Word w')
    (h : entry w rest = entry w' rest') : w = w' ∧ rest = rest' := by
  have hsplit := splitWord_entry hw rest
  rw [h, splitWord_entry hw'] at hsplit
  cases hsplit
  exact ⟨rfl, rfl⟩

theorem Word.of_all {w : Text} (hne : w ≠ []) (h : (w.all fun c => !isWhite c) = true) :
    Word w where
  ne_nil := hne
  clean c hc := by simpa using List.all_eq_true.mp h c hc

theorem word_log : Word LOG := .of_all (by decide) (by decide)

theorem word_data : Word DATA := .of_all (by decide) (by decide)

theorem word_return : Word RETURN := .of_all (by decide) (by decide)

theorem entry_data (rest : Text) : entry DATA rest = entry DATA [] ++ rest := by
  simp [entry]

theorem after_data {w : Text} (hw : Word w) (rest : Text) :
    after (entry DATA []) (entry w rest) = if w = DATA then some rest else none := by
  by_cases hdata : w = DATA
  · rw [if_pos hdata, hdata, entry_data rest, after_append]
  · rw [if_neg hdata]
    cases h : after (entry DATA []) (entry w rest) with
    | none => rfl
    | some =>
      have heq := eq_append_of_after h
      rw [← entry_data] at heq
      exact absurd (entry_inj hw word_data heq).1 hdata

/-! ## The lines of a frame -/

theorem ProgramId.word (p : ProgramId) : Word p.text where
  ne_nil := p.ne_nil
  clean c hc := by
    have hall : (base58.all fun c => !isWhite c) = true := by decide +kernel
    simpa using List.all_eq_true.mp hall c (p.chars c hc)

theorem colon_notMem_base58 : ':' ∉ base58 := by decide +kernel

theorem ProgramId.ne_of_colon (p : ProgramId) {w : Text} (h : ':' ∈ w) : p.text ≠ w := by
  rintro rfl
  exact colon_notMem_base58 (p.chars ':' h)

theorem Line.word_word (l : Line) : Word l.word := by
  cases l with
  | log => exact word_log
  | data => exact word_data
  | consumed program => exact program.word
  | returned => exact word_return

theorem isInvoke_invokeRest (depth : Nat) : isInvoke (invokeRest depth) = true := by
  have hne : Nat.toDigits 10 depth ≠ [] := Nat.toDigits_ne_nil
  have hall : (Nat.toDigits 10 depth).all Char.isDigit = true :=
    List.all_eq_true.mpr fun c hc => Nat.isDigit_of_mem_toDigits (by decide) (by decide) hc
  rw [isInvoke, invokeRest, after_append]
  simp [hne, hall]

theorem isInvoke_ending (e : Ending) : isInvoke e.rest = false := by
  cases e with
  | success => decide
  | failed => rfl

theorem isEnd_ending (e : Ending) : isEnd e.rest = true := by
  cases e with
  | success => decide
  | failed => rfl

theorem not_misread_consumed (p : ProgramId) (used available : Nat) :
    ¬ (Line.consumed p used available).Misread := by
  have hinvoke : isInvoke (Line.consumed p used available).rest = false := rfl
  have hend : isEnd (Line.consumed p used available).rest = false := rfl
  simp [Line.Misread, hinvoke, hend]

/-! ## The stack -/

section Scan

variable (id : ProgramId) (stack : List Text) (lines : List Text)

theorem scan_entry {w : Text} (hw : Word w) (rest : Text) :
    scan id.text stack (entry w rest :: lines) =
      if isInvoke rest then scan id.text (w :: stack) lines
      else if isEnd rest then scan id.text stack.tail lines
      else if w = DATA ∧ stack.head? = some id.text then
        Base64.decode rest :: scan id.text stack lines
      else scan id.text stack lines := by
  rw [scan, invoked_entry hw, ended_entry hw, after_data hw]
  cases isInvoke rest with
  | true => rfl
  | false =>
    cases isEnd rest with
    | true => rfl
    | false =>
      by_cases hdata : w = DATA
      · simp [hdata]
      · simp [hdata]

/-- Only a data line has the word of one. -/
theorem Line.payload_of_word (l : Line) (h : l.word = DATA) : ∃ payload, l = .data payload := by
  cases l with
  | log => exact absurd h (show LOG ≠ DATA by decide)
  | data payload => exact ⟨payload, rfl⟩
  | consumed program => exact absurd h (program.ne_of_colon (w := DATA) (by decide))
  | returned => exact absurd h (show RETURN ≠ DATA by decide)

/-- A line that is not misread leaves the stack alone. -/
theorem scan_line {l : Line} (hl : ¬ l.Misread) : scan id.text stack (l.text :: lines) =
    (if stack.head? = some id.text then l.payload.toList else []) ++ scan id.text stack lines := by
  have hinvoke : isInvoke l.rest = false := Bool.eq_false_iff.mpr fun h => hl (.inl h)
  have hend : isEnd l.rest = false := Bool.eq_false_iff.mpr fun h => hl (.inr h)
  rw [Line.text, scan_entry id stack lines l.word_word, hinvoke, hend]
  by_cases hdata : l.word = DATA
  · obtain ⟨_, rfl⟩ := l.payload_of_word hdata
    by_cases htop : stack.head? = some id.text
    · simp [htop, Line.word, Line.payload, Line.rest, Base64.decode_encode]
    · simp [htop]
  · have hnone : l.payload = none := by
      cases l with
      | data => exact absurd rfl hdata
      | log | consumed | returned => rfl
    simp [hdata, hnone]

theorem scan_invoke (p : ProgramId) (depth : Nat) :
    scan id.text stack (entry p.text (invokeRest depth) :: lines) =
      scan id.text (p.text :: stack) lines := by
  rw [scan_entry id stack lines p.word, isInvoke_invokeRest]
  rfl

theorem scan_ending (p : ProgramId) (e : Ending) :
    scan id.text stack (entry p.text e.rest :: lines) = scan id.text stack.tail lines := by
  rw [scan_entry id stack lines p.word, isInvoke_ending, isEnd_ending]
  rfl

end Scan

theorem ProgramId.text_inj {p q : ProgramId} : p.text = q.text ↔ p = q := by
  constructor
  · intro h
    cases p
    cases q
    simp_all
  · rintro rfl
    rfl

/-- Where nothing is misread, the top of the stack is the frame around. -/
theorem scan_flatten (id : ProgramId) (f : Forest) (hf : ∀ l ∈ f.lines, ¬ l.Misread) (depth : Nat)
    (current : Option ProgramId) (stack : List Text) (hstack : stack.head? = current.map (·.text))
    (lines : List Text) : scan id.text stack (f.flatten depth ++ lines) =
      f.emitted id current ++ scan id.text stack lines := by
  induction f generalizing depth current stack lines with
  | nil => rfl
  | line l rest ih =>
    obtain ⟨hl, hrest⟩ := List.forall_mem_cons.mp hf
    have htop : stack.head? = some id.text ↔ current = some id := by
      rw [hstack]
      cases current with
      | none => simp
      | some => simp [ProgramId.text_inj]
    rw [Forest.flatten, List.cons_append, scan_line id stack _ hl,
      ih hrest depth current stack hstack lines, Forest.emitted, List.append_assoc]
    simp only [htop]
  | frame program body ending rest ihbody ihrest =>
    have hbody : ∀ l ∈ body.lines, ¬ l.Misread := fun l hl => hf l (List.mem_append_left _ hl)
    have hrest : ∀ l ∈ rest.lines, ¬ l.Misread := fun l hl => hf l (List.mem_append_right _ hl)
    rw [Forest.flatten, List.cons_append, scan_invoke, List.append_assoc,
      ihbody hbody (depth + 1) (some program) (program.text :: stack) rfl, List.cons_append,
      scan_ending, List.tail_cons, ihrest hrest depth current stack hstack, Forest.emitted,
      List.append_assoc]

/-! ## Misread lines -/

/-- A payload behind a misread line is lost. -/
def lost (id : ProgramId) (l : Line) (payload : List UInt8) : Forest :=
  .frame id (.line l (.line (.data payload) .nil)) .success .nil

theorem scan_off_top {id : ProgramId} {stack : List Text} (h : stack.head? ≠ some id.text)
    (payload : List UInt8) (e : Ending) :
    scan id.text stack [(Line.data payload).text, entry id.text e.rest] = [] := by
  have hending : ∀ stack, scan id.text stack [entry id.text e.rest] = [] := by
    intro stack
    rw [scan_ending]
    rfl
  rw [Line.text, scan_entry id stack _ (Line.data payload).word_word]
  simp [h, hending]

theorem scan_lost (id : ProgramId) {l : Line} (hl : l.Misread) (payload : List UInt8)
    (depth : Nat) : scan id.text [] ((lost id l payload).flatten depth) = [] := by
  have hword : l.word ≠ id.text := by
    cases l with
    | log => exact (id.ne_of_colon (w := LOG) (by decide)).symm
    | data => exact (id.ne_of_colon (w := DATA) (by decide)).symm
    | consumed program used available =>
      exact absurd hl (not_misread_consumed program used available)
    | returned => exact (id.ne_of_colon (w := RETURN) (by decide)).symm
  simp only [lost, Forest.flatten, List.nil_append, List.cons_append]
  rw [scan_invoke, Line.text, scan_entry id [id.text] _ l.word_word]
  by_cases hinvoke : isInvoke l.rest = true
  · rw [if_pos hinvoke]
    exact scan_off_top (by simpa using hword) payload .success
  · rw [if_neg hinvoke, if_pos (hl.resolve_left hinvoke)]
    exact scan_off_top (by simp) payload .success

theorem programScoped_eq (lines : List Text) (id : ProgramId) :
    programScopedEventPayloads (some lines) (some id.text) = scan id.text [] lines := by
  simp [programScopedEventPayloads, id.ne_nil]

/-- Logs without a misread line are read as they were written. Of a stock of
lines with a payload, all logs are, exactly if no line of it is misread. -/
theorem events_exact_iff {Allowed : Line → Prop} {payload : List UInt8}
    (hdata : Allowed (.data payload)) :
    (∀ (f : Forest) (id : ProgramId), (∀ l ∈ f.lines, ¬ l.Misread) →
      programScopedEventPayloads (some (f.flatten 1)) (some id.text) = f.emitted id none) ∧
    ((∀ (f : Forest) (id : ProgramId), (∀ l ∈ f.lines, Allowed l) →
      programScopedEventPayloads (some (f.flatten 1)) (some id.text) = f.emitted id none) ↔
        ∀ l, Allowed l → ¬ l.Misread) := by
  have hclear : ∀ (f : Forest) (id : ProgramId), (∀ l ∈ f.lines, ¬ l.Misread) →
      programScopedEventPayloads (some (f.flatten 1)) (some id.text) = f.emitted id none := by
    intro f id hf
    have hflat := scan_flatten id f hf 1 none [] rfl []
    rw [programScoped_eq]
    simpa [scan] using hflat
  refine ⟨hclear, ?_, fun h f id hf => hclear f id fun l hl => h l (hf l hl)⟩
  intro hexact l hl hmis
  let id : ProgramId := .ofAll ['1'] (by decide) (by decide)
  have hallowed : ∀ l' ∈ (lost id l payload).lines, Allowed l' := by
    intro l' hl'
    simp only [lost, Forest.lines, List.append_nil, List.mem_cons, List.not_mem_nil,
      or_false] at hl'
    obtain rfl | rfl := hl'
    · exact hl
    · exact hdata
  have hlost := hexact (lost id l payload) id hallowed
  rw [programScoped_eq, scan_lost id hmis payload 1] at hlost
  simp [lost, Forest.emitted, Line.payload] at hlost

namespace Sample

def pool : ProgramId := .ofAll ['P'] (by decide) (by decide)

def other : ProgramId := .ofAll ['Q'] (by decide) (by decide)

/-- The pool invokes a program that logs "success" and a payload of its own. -/
def forged : Forest :=
  .frame pool (.frame other (.line (.log SUCCESS) (.line (.data [1, 2, 3]) .nil)) .success .nil)
    .success .nil

/-- The pool logs "invoke [1]" before its payload. -/
def dropped : Forest :=
  .frame pool (.line (.log (invokeRest 1)) (.line (.data [1, 2, 3]) .nil)) .success .nil

/-- A payload, and a log that says "ok". -/
def Paying (l : Line) : Prop := l = .data [1, 2, 3] ∨ l = .log ['o', 'k']

end Sample

/-- Neither the log nor the payload is misread. -/
theorem events_exact_iff_paid : Sample.Paying (.data [1, 2, 3]) ∧
    ∀ (f : Forest) (id : ProgramId), (∀ l ∈ f.lines, Sample.Paying l) →
      programScopedEventPayloads (some (f.flatten 1)) (some id.text) = f.emitted id none := by
  have hdata : Sample.Paying (.data [1, 2, 3]) := .inl rfl
  refine ⟨hdata, (events_exact_iff hdata).2.mpr ?_⟩
  rintro l (rfl | rfl) (h | h)
  · exact absurd h (by decide +kernel)
  · exact absurd h (by decide +kernel)
  · exact absurd h (by decide +kernel)
  · exact absurd h (by decide +kernel)

/-- The other program's payload is taken for the pool's, and the pool's is lost. -/
theorem events_misread :
    (¬ ∀ (f : Forest) (id : ProgramId), ∀ p ∈ programScopedEventPayloads (some (f.flatten 1))
      (some id.text), p ∈ f.emitted id none) ∧
    ¬ ∀ (f : Forest) (id : ProgramId), ∀ p ∈ f.emitted id none,
      p ∈ programScopedEventPayloads (some (f.flatten 1)) (some id.text) := by
  constructor
  · intro h
    have hforged := h Sample.forged Sample.pool [1, 2, 3] (by decide +kernel)
    exact absurd hforged (by decide +kernel)
  · intro h
    have hdropped := h Sample.dropped Sample.pool [1, 2, 3] (by decide +kernel)
    exact absurd hdropped (by decide +kernel)

end Scadium.Solana
