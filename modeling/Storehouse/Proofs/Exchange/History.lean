import Storehouse.Proofs.Exchange.Turns

namespace Storehouse.Script

/-- What is done to a script: it gets a command, or a reply is put at the end of its list. -/
inductive Act
  | command (tokens : List String)
  | push (reply : Reply)

namespace Act

def tokens? : Act → Option (List String)
  | command tokens => some tokens
  | push _ => none

def pushed? : Act → Option Reply
  | command _ => none
  | push reply => some reply

def Idle (act : Act) : Prop := ∀ tokens ∈ act.tokens?, tokens = []

end Act

def named (acts : List Act) : List (List String) :=
  (acts.filterMap Act.tokens?).filter (· ≠ [])

def pushed (acts : List Act) : List Reply := acts.filterMap Act.pushed?

@[simp]
theorem named_push (reply : Reply) : named [.push reply] = [] := rfl

@[simp]
theorem named_nil : named [.command []] = [] := rfl

@[simp]
theorem named_command {tokens : List String} (h : tokens ≠ []) :
    named [.command tokens] = [tokens] := by
  simp [named, Act.tokens?, h]

@[simp]
theorem pushed_push (reply : Reply) : pushed [.push reply] = [reply] := rfl

@[simp]
theorem pushed_command (tokens : List String) : pushed [.command tokens] = [] := rfl

def perform (s : Script) : Act → Script
  | .command tokens => (execute tokens s).2
  | .push reply => s.push reply

def performAll (s : Script) (acts : List Act) : Script := acts.foldl perform s

/-- An act, and the script that it meets. -/
structure Moment where
  before : Script
  act : Act

namespace Moment

def after (m : Moment) : Script := m.before.perform m.act

def answer? (m : Moment) : Option (Except Fault Reply) :=
  m.act.tokens?.map fun tokens => (execute tokens m.before).1

/-- The reply to the command, if it was not refused. -/
def reply? (m : Moment) : Option Reply := m.answer?.bind Except.toOption

def served? (m : Moment) : Option Reply :=
  if m.before.pending.isEmpty then none else m.reply?

/-- There is a reply, though there was none in the list. -/
def isDry (m : Moment) : Bool := m.before.pending.isEmpty && m.reply?.isSome

end Moment

def moments (s : Script) : List Act → List Moment
  | [] => []
  | act :: rest => ⟨s, act⟩ :: (s.perform act).moments rest

def served (s : Script) (acts : List Act) : List Reply := (s.moments acts).filterMap Moment.served?

/-- The moments at which the script had run dry. -/
def dry (s : Script) (acts : List Act) : List Moment := (s.moments acts).filter Moment.isDry

variable {s : Script}

/-- A command is refused for want of a name, or gets the next reply, or nil if there is none. -/
theorem execute_cases (tokens : List String) (s : Script) :
    (tokens = [] ∧ execute tokens s = (.error .emptyCommand, s)) ∨
    (tokens ≠ [] ∧ s.pending = [] ∧
      execute tokens s = (.ok .nil, ⟨[], s.commands ++ [tokens]⟩)) ∨
    (tokens ≠ [] ∧ ∃ reply rest, s.pending = reply :: rest ∧
      execute tokens s = (.ok reply, ⟨rest, s.commands ++ [tokens]⟩)) := by
  obtain ⟨pending, commands⟩ := s
  cases tokens with
  | nil => exact .inl ⟨rfl, rfl⟩
  | cons verb arguments =>
    cases pending with
    | nil => exact .inr (.inl ⟨List.cons_ne_nil _ _, rfl, rfl⟩)
    | cons reply rest => exact .inr (.inr ⟨List.cons_ne_nil _ _, reply, rest, rfl, rfl⟩)

theorem execute_of_pending {tokens : List String} (h : tokens ≠ []) {reply : Reply}
    {rest : List Reply} (hpending : s.pending = reply :: rest) :
    execute tokens s = (.ok reply, ⟨rest, s.commands ++ [tokens]⟩) := by
  obtain ⟨hnil, -⟩ | ⟨-, hdry, -⟩ | ⟨-, _, _, hcons, hexecute⟩ := execute_cases tokens s
  · exact absurd hnil h
  · cases hpending.symm.trans hdry
  · cases hpending.symm.trans hcons
    exact hexecute

namespace Moment

/-- What one act keeps: no reply is lost, repeated or overtaken, and the command is kept. -/
structure Kept (m : Moment) : Prop where
  pending : m.before.pending ++ (pushed [m.act]) = m.served?.toList ++ m.after.pending
  commands : m.after.commands = m.before.commands ++ named [m.act]
  length : (named [m.act]).length = m.served?.toList.length + m.isDry.toNat

theorem reply?_push (s : Script) (reply : Reply) : (Moment.mk s (.push reply)).reply? = none := rfl

theorem reply?_command (s : Script) (tokens : List String) :
    (Moment.mk s (.command tokens)).reply? = (execute tokens s).1.toOption := rfl

theorem after_command (s : Script) (tokens : List String) :
    (Moment.mk s (.command tokens)).after = (execute tokens s).2 := rfl

theorem kept_push (s : Script) (reply : Reply) : (Moment.mk s (.push reply)).Kept where
  pending := by simp [served?, reply?_push, after, perform, push]
  commands := by simp [after, perform, push]
  length := by simp [served?, isDry, reply?_push]

theorem kept_command (s : Script) (tokens : List String) :
    (Moment.mk s (.command tokens)).Kept := by
  obtain ⟨rfl, hexecute⟩ | ⟨htokens, hdry, hexecute⟩ | ⟨htokens, reply, rest, hcons, hexecute⟩ :=
    execute_cases tokens s
  · have hreply : (Moment.mk s (.command [])).reply? = none := by
      rw [reply?_command, hexecute]
      rfl
    constructor <;> simp [served?, isDry, hreply, after_command, hexecute]
  · have hreply : (Moment.mk s (.command tokens)).reply? = some .nil := by
      rw [reply?_command, hexecute]
      rfl
    constructor <;> simp [served?, isDry, hreply, after_command, hexecute, hdry, htokens]
  · have hreply : (Moment.mk s (.command tokens)).reply? = some reply := by
      rw [reply?_command, hexecute]
      rfl
    constructor <;> simp [served?, isDry, hreply, after_command, hexecute, hcons, htokens]

theorem kept (m : Moment) : m.Kept := by
  obtain ⟨s, act⟩ := m
  cases act with
  | command tokens => exact kept_command s tokens
  | push reply => exact kept_push s reply

end Moment

theorem pushed_append (acts later : List Act) :
    pushed (acts ++ later) = pushed acts ++ pushed later :=
  List.filterMap_append

theorem pushed_cons (act : Act) (acts : List Act) :
    pushed (act :: acts) = pushed [act] ++ pushed acts :=
  pushed_append [act] acts

theorem named_cons (act : Act) (acts : List Act) :
    named (act :: acts) = named [act] ++ named acts := by
  rw [named, named, named, ← List.filter_append, ← List.filterMap_append, List.singleton_append]

theorem served_cons (s : Script) (act : Act) (acts : List Act) :
    s.served (act :: acts) =
      (Moment.mk s act).served?.toList ++ (s.perform act).served acts := by
  rw [served, moments, List.filterMap_cons]
  split
  · next h => rw [h]; rfl
  · next h => rw [h]; rfl

theorem length_dry_cons (s : Script) (act : Act) (acts : List Act) :
    (s.dry (act :: acts)).length =
      (Moment.mk s act).isDry.toNat + ((s.perform act).dry acts).length := by
  rw [dry, moments, List.filter_cons]
  split
  · next h => rw [h, List.length_cons, Nat.add_comm]; rfl
  · next h => rw [Bool.eq_false_iff.mpr h, Bool.toNat_false, Nat.zero_add]; rfl

/-- What a whole run keeps. -/
structure Kept (s : Script) (acts : List Act) : Prop where
  pending : s.pending ++ pushed acts = s.served acts ++ (s.performAll acts).pending
  commands : (s.performAll acts).commands = s.commands ++ named acts
  length : (named acts).length = (s.served acts).length + (s.dry acts).length

theorem kept (s : Script) (acts : List Act) : s.Kept acts := by
  induction acts generalizing s with
  | nil => exact ⟨List.append_nil _, (List.append_nil _).symm, rfl⟩
  | cons act acts ih =>
    have hmoment := (Moment.mk s act).kept
    have hrest := ih (s.perform act)
    constructor
    case pending =>
      calc s.pending ++ pushed (act :: acts)
        _ = (s.pending ++ pushed [act]) ++ pushed acts := by rw [pushed_cons, List.append_assoc]
        _ = (Moment.mk s act).served?.toList ++ ((s.perform act).pending ++ pushed acts) := by
          rw [hmoment.pending, List.append_assoc]; rfl
        _ = s.served (act :: acts) ++ (s.performAll (act :: acts)).pending := by
          rw [hrest.pending, ← List.append_assoc, ← served_cons]; rfl
    case commands =>
      calc (s.performAll (act :: acts)).commands
        _ = (s.perform act).commands ++ named acts := hrest.commands
        _ = s.commands ++ named [act] ++ named acts := congrArg (· ++ _) hmoment.commands
        _ = s.commands ++ named (act :: acts) := by
          rw [named_cons act acts, List.append_assoc]
    case length =>
      rw [named_cons, served_cons, length_dry_cons, List.length_append, List.length_append,
        hmoment.length, hrest.length]
      omega

theorem performAll_append (s : Script) (acts later : List Act) :
    s.performAll (acts ++ later) = (s.performAll acts).performAll later :=
  List.foldl_append

theorem pending_perform_of_idle {act : Act} (h : act.Idle) (s : Script) :
    (s.perform act).pending = s.pending ++ pushed [act] := by
  cases act with
  | push reply => rfl
  | command tokens =>
    cases h tokens rfl
    exact (List.append_nil _).symm

theorem pending_performAll_of_idle {acts : List Act} (h : ∀ act ∈ acts, act.Idle) (s : Script) :
    (s.performAll acts).pending = s.pending ++ pushed acts := by
  induction acts generalizing s with
  | nil => exact (List.append_nil _).symm
  | cons act acts ih =>
    have hrest := ih (fun other hother => h other (List.mem_cons_of_mem act hother)) (s.perform act)
    rw [pushed_cons, ← List.append_assoc, ← pending_perform_of_idle (h act List.mem_cons_self)]
    exact hrest

theorem execute_after_push (hdry : s.pending = []) (reply : Reply) {idle : List Act}
    (hidle : ∀ act ∈ idle, act.Idle) {tokens : List String} (htokens : tokens ≠ []) :
    (execute tokens (s.performAll (.push reply :: idle))).1 = .ok reply := by
  have hpending : (s.performAll (.push reply :: idle)).pending = reply :: pushed idle := by
    change ((s.push reply).performAll idle).pending = _
    rw [pending_performAll_of_idle hidle, push, hdry]
    rfl
  rw [execute_of_pending htokens hpending]

/-- A command with a name gets nil from a script that stays as it is if and only if the script has
run dry. -/
theorem execute_eq_nil_iff {tokens : List String} (htokens : tokens ≠ []) :
    ((execute tokens s).1 = .ok .nil ∧ (execute tokens s).2.pending = s.pending) ↔
      s.pending = [] := by
  obtain ⟨rfl, -⟩ | ⟨-, hdry, hexecute⟩ | ⟨-, reply, rest, hcons, hexecute⟩ :=
    execute_cases tokens s
  · exact absurd rfl htokens
  · simp [hexecute, hdry]
  · simp [hexecute, hcons]

/-- What holds of a script that starts with these replies, after any acts and at each moment on the
way. -/
structure Ordered (replies : List Reply) (acts : List Act) : Prop where
  served_append_pending : (ofReplies replies).served acts ++
    ((ofReplies replies).performAll acts).pending = replies ++ pushed acts
  commands : ((ofReplies replies).performAll acts).commands = named acts
  lastCommand? : ((ofReplies replies).performAll acts).lastCommand? = (named acts).getLast?
  length_commands : ((ofReplies replies).performAll acts).commands.length =
    ((ofReplies replies).served acts).length + ((ofReplies replies).dry acts).length
  nil_iff (m : Moment) (tokens : List String) : m ∈ (ofReplies replies).moments acts →
    m.act = .command tokens → tokens ≠ [] →
      ((m.answer? = some (.ok .nil) ∧ m.after.pending = m.before.pending) ↔ m.before.pending = [])
  refused (m : Moment) : m ∈ (ofReplies replies).moments acts → m.act = .command [] →
    m.answer? = some (.error .emptyCommand) ∧ m.after = m.before
  served_after_push (reply : Reply) (idle : List Act) (tokens : List String) :
    ((ofReplies replies).performAll acts).pending = [] → (∀ act ∈ idle, act.Idle) → tokens ≠ [] →
      (execute tokens ((ofReplies replies).performAll (acts ++ .push reply :: idle))).1 = .ok reply

theorem ordered (replies : List Reply) (acts : List Act) : Ordered replies acts := by
  have hkept := kept (ofReplies replies) acts
  have hcommands : ((ofReplies replies).performAll acts).commands = named acts := hkept.commands
  constructor
  case served_append_pending => exact hkept.pending.symm
  case commands => exact hcommands
  case lastCommand? => rw [lastCommand?, hcommands]
  case length_commands => rw [hcommands, hkept.length]
  case nil_iff =>
    rintro ⟨before, act⟩ tokens - rfl htokens
    rw [← execute_eq_nil_iff htokens]
    exact and_congr_left' Option.some_inj
  case refused =>
    rintro ⟨before, act⟩ - rfl
    exact ⟨rfl, rfl⟩
  case served_after_push =>
    intro reply idle tokens hdry hidle htokens
    rw [performAll_append]
    exact execute_after_push hdry reply hidle htokens

end Storehouse.Script
