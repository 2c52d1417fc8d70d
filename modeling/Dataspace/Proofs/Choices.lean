import Dataspace.Assembly
import Dataspace.Proofs.Basic
import Dataspace.Proofs.Exchange

/-!
# The last word counts

An owner assembles an engine by choices. There are nine things to choose, and each may be chosen as
often as wished, before or after any other. What comes of it hangs on the last choice that was
accepted for each of them and on nothing else. A choice writes to one field of the assembly, so that
choices of different things commute; and nothing is filled in before the engine is built, so that a
configuration, whenever it is named, yields to what was said outright.

* **`Choice.chosen_after`** — one choice gives a value to its own part and leaves the others alone.
* **`Choice.answer_eq_error_iff`**, **`Choice.after_eq_self`** — only a policy that does not exist
  is refused, and a refusal leaves the assembly as it was.
* **`chosen_work`** — after any choices each part has the last value that was given to it.
* **`builds_draft`** — what is built after any choices, and what stands in the way of building.
* **`last_word_counts`** — the order of choices of different things is of no account.
-/

namespace Dataspace.Assembly

variable {σ : Type}

/-! ## Parts and choices -/

/-- The things that can be chosen. -/
inductive Part where
  | config
  | identity
  | tokens
  | transport
  | persistence
  | agreements
  | examiner
  | policy
  | confirmation
deriving DecidableEq

/-- What a part is chosen from. -/
abbrev Part.Value (σ : Type) : Part → Type
  | config => Config
  | identity => IdentitySource
  | tokens => Nat → String
  | transport => Transport σ
  | persistence => Persistence σ
  | agreements => AgreementService
  | examiner => Examiner
  | policy => FailurePolicy
  | confirmation => Bool

/-- What was chosen for a part. -/
def chosen : (p : Part) → Assembly σ → Option (p.Value σ)
  | .config, a => a.config
  | .identity, a => a.identity
  | .tokens, a => a.tokenAt
  | .transport, a => a.transport
  | .persistence, a => a.persistence
  | .agreements, a => a.agreements
  | .examiner, a => a.examiner
  | .policy, a => a.policy
  | .confirmation, a => a.confirms

/-- One choice, as an owner makes it; a policy is chosen by its name. -/
inductive Choice (σ : Type) where
  | config (c : Config)
  | identity (source : IdentitySource)
  | tokens (tokenAt : Nat → String)
  | transport (t : Transport σ)
  | persistence (p : Persistence σ)
  | agreements (service : AgreementService)
  | examiner (x : Examiner)
  | policy (name : String)
  | confirmation (confirms : Bool)

namespace Choice

def part : Choice σ → Part
  | config _ => .config
  | identity _ => .identity
  | tokens _ => .tokens
  | transport _ => .transport
  | persistence _ => .persistence
  | agreements _ => .agreements
  | examiner _ => .examiner
  | policy _ => .policy
  | confirmation _ => .confirmation

/-- What a choice gives to a part. Nothing comes of a policy that does not exist. -/
def gives : (p : Part) → Choice σ → Option (p.Value σ)
  | .config, config c => some c
  | .identity, identity source => some source
  | .tokens, tokens tokenAt => some tokenAt
  | .transport, transport t => some t
  | .persistence, persistence p => some p
  | .agreements, agreements service => some service
  | .examiner, examiner x => some x
  | .policy, policy name => FailurePolicy.ofName? name
  | .confirmation, confirmation confirms => some confirms
  | _, _ => none

/-- What a choice does to an assembly. A refusal ends the choice but not the assembly, which stays
as far as it has come. -/
def call : Choice σ → ExceptT Error (StateM (Assembly σ)) Unit
  | config c => modify (withConfig c)
  | identity source => modify (withIdentity source)
  | tokens tokenAt => modify (withTokens tokenAt)
  | transport t => modify (withTransport t)
  | persistence p => modify (withPersistence p)
  | agreements service => modify (withAgreements service)
  | examiner x => modify (withExaminer x)
  | policy name => do
    match (← get).withPolicy name with
    | .ok a => set a
    | .error e => throw e
  | confirmation confirms => modify (withConfirmation confirms)

/-- What an owner hears of a choice. -/
def answer (c : Choice σ) (a : Assembly σ) : Except Error Unit :=
  (c.call.run.run a).1

/-- The assembly after a choice, whether it was accepted or not. -/
def after (c : Choice σ) (a : Assembly σ) : Assembly σ :=
  (c.call.run.run a).2

/-! ## One choice -/

theorem call_policy (name : String) (a : Assembly σ) :
    (policy name).call.run.run a =
      match FailurePolicy.ofName? name with
      | some p => (.ok (), { a with policy := some p })
      | none => (.error (.unknownPolicy name), a) := by
  show ((match a.withPolicy name with
    | .ok b => (set b : ExceptT Error (StateM (Assembly σ)) Unit)
    | .error e => throw e).run.run a) = _
  rw [withPolicy]
  cases FailurePolicy.ofName? name <;> rfl

/-- **One choice** gives a value to its own part and leaves the others alone. -/
theorem chosen_after (c : Choice σ) (p : Part) (a : Assembly σ) :
    (c.after a).chosen p = (c.gives p).or (a.chosen p) := by
  cases c with
  | policy name =>
    rw [after, call_policy]
    cases hname : FailurePolicy.ofName? name with
    | none =>
      -- the assembly is as it was, and nothing was given
      have hnone : (policy name : Choice σ).gives p = none := by
        cases p with
        | policy => exact hname
        | _ => rfl
      rw [hnone, Option.none_or]
    | some policy =>
      cases p with
      | policy => simp only [gives, hname, Option.some_or, chosen]
      | _ => rfl
  | _ => cases p <;> rfl

/-- Only a policy can be refused, and only if there is none of that name. -/
theorem answer_eq_error_iff {c : Choice σ} {a : Assembly σ} {e : Error} :
    c.answer a = .error e ↔
      ∃ name, c = policy name ∧ FailurePolicy.ofName? name = none ∧ e = .unknownPolicy name := by
  cases c with
  | policy name =>
    rw [answer, call_policy]
    cases hname : FailurePolicy.ofName? name with
    | none =>
      constructor
      · rintro ⟨⟩
        exact ⟨name, rfl, hname, rfl⟩
      · rintro ⟨_, ⟨⟩, -, rfl⟩
        rfl
    | some p =>
      constructor
      · rintro ⟨⟩
      · rintro ⟨_, ⟨⟩, hnone, -⟩
        rw [hname] at hnone
        cases hnone
  | _ =>
    constructor
    · rintro ⟨⟩
    · rintro ⟨_, ⟨⟩, -⟩

/-- **What is refused leaves the assembly as it was.** -/
theorem after_eq_self {c : Choice σ} {a : Assembly σ} {e : Error} (h : c.answer a = .error e) :
    c.after a = a := by
  obtain ⟨name, rfl, hnone, -⟩ := answer_eq_error_iff.1 h
  rw [after, call_policy, hnone]

/-- What is chosen of one part gives nothing to another. -/
theorem gives_of_ne {c : Choice σ} {p : Part} (h : c.part ≠ p) : c.gives p = none := by
  cases c <;> cases p <;> first | rfl | exact absurd rfl h

end Choice

/-! ## Any number of choices -/

/-- An assembly after some choices. -/
def work (choices : List (Choice σ)) (a : Assembly σ) : Assembly σ :=
  choices.foldl (fun a c => c.after a) a

/-- What an owner comes to who begins with nothing. -/
def draft (choices : List (Choice σ)) : Assembly σ :=
  work choices .empty

/-- The last value that the choices give to a part. -/
def last? (p : Part) (choices : List (Choice σ)) : Option (p.Value σ) :=
  (choices.filterMap (Choice.gives p)).getLast?

/-- The choices of one part, in their order. -/
def choicesOf (p : Part) (choices : List (Choice σ)) : List (Choice σ) :=
  choices.filter fun c => c.part = p

variable {choices others front back : List (Choice σ)} {p : Part}

/-- **The last value of each part** is what an assembly holds after any choices. -/
theorem chosen_work (choices : List (Choice σ)) (p : Part) :
    ∀ a : Assembly σ, (work choices a).chosen p = (last? p choices).or (a.chosen p) := by
  induction choices with
  | nil => exact fun a => rfl
  | cons c rest ih =>
    intro a
    have hrest : (work (c :: rest) a).chosen p = (last? p rest).or ((c.after a).chosen p) :=
      ih (c.after a)
    rw [hrest, c.chosen_after, last?, last?, List.filterMap_cons]
    cases hgives : c.gives p with
    | none => rfl
    | some value =>
      -- a later value counts, and else this one
      simp only [List.getLast?_cons]
      cases (rest.filterMap (Choice.gives p)).getLast? <;> rfl

theorem chosen_draft (choices : List (Choice σ)) (p : Part) :
    (draft choices).chosen p = last? p choices := by
  have hnone : (empty : Assembly σ).chosen p = none := by cases p <;> rfl
  rw [draft, chosen_work, hnone, Option.or_none]

theorem getD_chosen (choices : List (Choice σ)) (p : Part) (absent : p.Value σ) :
    ((draft choices).chosen p).getD absent = (last? p choices).getD absent := by
  rw [chosen_draft]

/-- An assembly is what was chosen for its parts. -/
theorem ext_chosen {a b : Assembly σ} (h : ∀ p, a.chosen p = b.chosen p) : a = b := by
  cases a
  cases b
  rw [Assembly.mk.injEq]
  exact ⟨h .config, h .identity, h .tokens, h .transport, h .persistence, h .agreements,
    h .examiner, h .policy, h .confirmation⟩

/-- Choices with the same last values come to the same. -/
theorem draft_congr (h : ∀ p, last? p others = last? p choices) : draft others = draft choices :=
  ext_chosen fun p => by rw [chosen_draft, chosen_draft, h p]

/-- The last value of a part is one of the choices of that part. -/
theorem last?_choicesOf (p : Part) (choices : List (Choice σ)) :
    last? p (choicesOf p choices) = last? p choices := by
  have hothers : ∀ c : Choice σ, (if c.part = p then c.gives p else none) = c.gives p := by
    intro c
    split
    · rfl
    · rename_i hne
      exact (Choice.gives_of_ne hne).symm
  rw [last?, last?, choicesOf, List.filterMap_filter]
  simp only [decide_eq_true_eq, hothers]

theorem draft_append (front back : List (Choice σ)) :
    draft (front ++ back) = work back (draft front) :=
  List.foldl_append

/-! ## What is built -/

/-- The configuration that holds: the last one chosen, or the one that the environment gives. -/
def Configured (choices : List (Choice σ)) (environment : List (String × String)) (c : Config) :
    Prop :=
  last? .config choices = some c ∨
    last? .config choices = none ∧ Config.read [] environment = .ok c

/-- What an engine is made of, if the configuration `c` holds. -/
structure Furnished (choices : List (Choice σ)) (c : Config) (net : Http.Network σ)
    (made : Assembled σ) : Prop where
  identity : made.engine.identity = (last? .identity choices).getD
    (.settled c.connectorId c.modelVersion ((last? .tokens choices).getD fun _ => c.token))
  transport : made.engine.transport = (last? .transport choices).getD (Http.transport net)
  timeouts : made.timeouts = .ofLimits c.requestTimeout c.connectTimeout
  persistence : made.engine.persistence = (last? .persistence choices).getD .unhindered
  agreements : made.engine.agreements = (last? .agreements choices).getD .inMemory
  depth : made.engine.depth = c.depth
  examiner : made.engine.examiner = (last? .examiner choices).getD .strict
  /-- A policy that was chosen outright counts, and else the configured one. -/
  policy : made.engine.policy = (last? .policy choices).getD c.policy
  /-- So does what was said of confirming, be it yes or no. -/
  confirms : made.engine.confirms = (last? .confirmation choices).getD c.confirms
  steps : made.engine.steps.length = if (last? .confirmation choices).getD c.confirms then 5 else 4

/-- What building comes to. -/
structure Builds (choices : List (Choice σ)) (environment : List (String × String))
    (net : Http.Network σ) (result : Except Error (Assembled σ)) : Prop where
  /-- Where no configuration was chosen, the environment has to give one. -/
  unconfigured : ∀ report, last? .config choices = none →
    Config.read [] environment = .error report → result = .error (.invalid report)
  /-- Where no identity was chosen, the configuration has to give one. -/
  nameless : ∀ c, Configured choices environment c → last? .identity choices = none →
    c.connectorId = "" → result = .error .emptyConnectorId
  /-- With both an engine is built. -/
  furnished : ∀ c, Configured choices environment c →
    (last? .identity choices = none → c.connectorId ≠ "") →
    ∃ made, result = .ok made ∧ Furnished choices c net made

theorem configIn_of_configured {environment : List (String × String)} {c : Config}
    (h : Configured choices environment c) : (draft choices).configIn environment = .ok c := by
  have hchosen : (draft choices).config = last? .config choices := chosen_draft choices .config
  rw [configIn, hchosen]
  rcases h with hlast | ⟨hlast, hread⟩
  · rw [hlast]
  · rw [hlast]
    exact mapError_eq_ok.2 hread

/-- With a configuration and an identity nothing stands in the way. -/
theorem build_of_source {a : Assembly σ} {environment : List (String × String)}
    {net : Http.Network σ} {uuidAt : Nat → Uuid} {clock : Nat → Timestamp} {c : Config}
    {source : IdentitySource} (hconfig : a.configIn environment = .ok c)
    (hsource : a.identity = some source ∨
      a.identity = none ∧ IdentitySource.ofConfig c a.tokenAt = .ok source) :
    ∃ announcement, a.build environment net uuidAt clock = .ok
      { engine :=
          { identity := source
            transport := a.transport.getD (Http.transport net)
            uuidAt := uuidAt
            clock := clock
            persistence := a.persistence.getD .unhindered
            agreements := a.agreements.getD .inMemory
            depth := c.depth
            policy := a.policy.getD c.policy
            confirms := a.confirms.getD c.confirms
            examiner := a.examiner.getD .strict }
        timeouts := .ofLimits c.requestTimeout c.connectTimeout
        announcement := announcement } := by
  rw [build, hconfig]
  rcases hsource with hchosen | ⟨hchosen, hconfigured⟩
  · rw [hchosen]
    exact ⟨_, rfl⟩
  · rw [hchosen]
    simp only [bind, Except.bind, hconfigured]
    exact ⟨_, rfl⟩

/-- The identity that is chosen, or else the configured one. -/
theorem source_of_configured {c : Config}
    (hname : last? .identity choices = none → c.connectorId ≠ "") :
    (draft choices).identity = some ((last? .identity choices).getD (.settled c.connectorId
        c.modelVersion ((last? .tokens choices).getD fun _ => c.token))) ∨
      (draft choices).identity = none ∧ IdentitySource.ofConfig c (draft choices).tokenAt =
        .ok ((last? .identity choices).getD (.settled c.connectorId c.modelVersion
          ((last? .tokens choices).getD fun _ => c.token))) := by
  have hidentity : (draft choices).identity = last? .identity choices :=
    chosen_draft choices .identity
  have htokens : (draft choices).tokenAt = last? .tokens choices := chosen_draft choices .tokens
  rw [hidentity, htokens]
  cases hlast : last? .identity choices with
  | some source => exact .inl rfl
  | none => exact .inr ⟨rfl, if_neg fun hempty => hname hlast (String.isEmpty_iff.1 hempty)⟩

/-- **What is built** after any choices is made of the last ones. -/
theorem builds_draft (choices : List (Choice σ)) (environment : List (String × String))
    (net : Http.Network σ) (uuidAt : Nat → Uuid) (clock : Nat → Timestamp) :
    Builds choices environment net ((draft choices).build environment net uuidAt clock) where
  unconfigured report hlast hread := by
    have hchosen : (draft choices).config = none := (chosen_draft choices .config).trans hlast
    have hconfig : (draft choices).configIn environment = .error (.invalid report) := by
      rw [configIn, hchosen, hread]
      rfl
    rw [build, hconfig]
    rfl
  nameless c hc hlast hname := by
    have hchosen : (draft choices).identity = none := (chosen_draft choices .identity).trans hlast
    have hsource : IdentitySource.ofConfig c (draft choices).tokenAt = .error .emptyConnectorId :=
      if_pos (String.isEmpty_iff.2 hname)
    rw [build, configIn_of_configured hc, hchosen]
    simp only [bind, Except.bind, hsource]
  furnished c hc hname := by
    obtain ⟨announcement, hbuild⟩ :=
      build_of_source (configIn_of_configured hc) (source_of_configured hname)
    have hconfirms : (draft choices).confirms.getD c.confirms =
        (last? .confirmation choices).getD c.confirms := getD_chosen choices .confirmation _
    refine ⟨_, hbuild, ?_⟩
    exact
      { identity := rfl
        transport := getD_chosen choices .transport _
        timeouts := rfl
        persistence := getD_chosen choices .persistence _
        agreements := getD_chosen choices .agreements _
        depth := rfl
        examiner := getD_chosen choices .examiner _
        policy := getD_chosen choices .policy _
        confirms := getD_chosen choices .confirmation _
        steps := by
          rw [Engine.steps, hconfirms]
          cases (last? .confirmation choices).getD c.confirms <;> rfl }

/-- **What counts of choices.** -/
structure LastWordCounts (choices : List (Choice σ)) : Prop where
  /-- What is built hangs on the last accepted choice of each part alone. -/
  settled : ∀ others, (∀ p, last? p others = last? p choices) →
    ∀ environment net uuidAt clock, (draft others).build environment net uuidAt clock =
      (draft choices).build environment net uuidAt clock
  /-- Choices of different parts may change places. -/
  reordered : ∀ others, (∀ p, choicesOf p others = choicesOf p choices) →
    ∀ environment net uuidAt clock, (draft others).build environment net uuidAt clock =
      (draft choices).build environment net uuidAt clock
  /-- The last choices make the engine, and the configuration the rest of it. -/
  built : ∀ environment net uuidAt clock,
    Builds choices environment net ((draft choices).build environment net uuidAt clock)
  /-- A policy that does not exist is refused, and all goes on as if it had not been named. -/
  refused : ∀ front name back, choices = front ++ .policy name :: back →
    FailurePolicy.ofName? name = none →
    (Choice.policy name).answer (draft front) = .error (.unknownPolicy name) ∧
      (Choice.policy name).after (draft front) = draft front ∧
      draft choices = draft (front ++ back)

/-- **The last word counts**, whatever the choices are and in whatever order they are made. -/
theorem last_word_counts (choices : List (Choice σ)) : LastWordCounts choices where
  settled others h environment net uuidAt clock := by rw [draft_congr h]
  reordered others h environment net uuidAt clock := by
    have hlast : ∀ p, last? p others = last? p choices := by
      intro p
      rw [← last?_choicesOf p others, h p, last?_choicesOf]
    rw [draft_congr hlast]
  built := builds_draft choices
  refused := by
    rintro front name back rfl hnone
    have hanswer : (Choice.policy name).answer (draft front) = .error (.unknownPolicy name) :=
      Choice.answer_eq_error_iff.2 ⟨name, rfl, hnone, rfl⟩
    have hafter : (Choice.policy name).after (draft front) = draft front :=
      Choice.after_eq_self hanswer
    refine ⟨hanswer, hafter, ?_⟩
    have hcons : draft (front ++ .policy name :: back) =
        work back ((Choice.policy name).after (draft front)) := draft_append front _
    rw [hcons, hafter, draft_append]

/-- Nobody can be reached. -/
def deadNetwork : Http.Network Unit :=
  ⟨fun _ world => (.error (.network "no route"), world), fun _ => "", fun _ => .none,
    fun _ world => world⟩

/-- A configuration under which agreements are sent back. -/
def confirming : Config :=
  { Config.standard with confirms := true }

/-- Confirming is declined before a configuration asks for it, and of two policies one does not
exist. -/
def declinedFirst : List (Choice Unit) :=
  [.confirmation false, .policy "continue", .policy "sometimes", .config confirming]

def declinedLast : List (Choice Unit) :=
  [.policy "continue", .config confirming, .policy "sometimes", .confirmation false]

/-- What was declined stays declined, and the environment, which holds nothing of use, is not asked
where a configuration was chosen. -/
theorem last_word_counts_of_declined :
    let environment := [("DSC_CONFIRM_AGREEMENTS", "perhaps")]
    let uuidAt (_ : Nat) : Uuid := ⟨0⟩
    let clock (_ : Nat) : Timestamp := ⟨⟨2026, 3, 1, by decide⟩, .midnight, .fixed .utc⟩
    ∃ made, (draft declinedFirst).build environment deadNetwork uuidAt clock = .ok made ∧
      made.engine.confirms = false ∧ made.engine.policy = .carryOn ∧
      made.engine.steps.length = 4 ∧
      (draft declinedLast).build environment deadNetwork uuidAt clock = .ok made := by
  intro environment uuidAt clock
  have hcounts := last_word_counts declinedFirst
  have hsame : ∀ p, choicesOf p declinedLast = choicesOf p declinedFirst := by
    intro p
    cases p <;> rfl
  obtain ⟨made, hbuild, hmade⟩ :=
    (hcounts.built environment deadNetwork uuidAt clock).furnished confirming (.inl rfl)
      fun _ => by decide
  have hreordered := hcounts.reordered declinedLast hsame environment deadNetwork uuidAt clock
  exact ⟨made, hbuild, hmade.confirms, hmade.policy, hmade.steps, hreordered.trans hbuild⟩

end Dataspace.Assembly
