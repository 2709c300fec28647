import Chronicle.Inventory.Registry
import Chronicle.Proofs.Envelope.Unpacking

/-!
# How headers are resolved

A chain is what its resolvers were registered on top of, the empty chain or that of the declared
names, and consults them from the last to the first. The last one registered to accept the headers
decides (`Chain.resolve?_eq_some_iff`), and those after it are passed over, which leaves a trace in
the log where they fail (`Chain.log_resolve_of_accepts`). If all are passed over, so many traces end
with the report that nobody knew the headers (`Chain.log_resolve_of_forall_not`).
-/

namespace Chronicle

variable {T : Type}

/-! ### Verdicts -/

namespace Resolver

/-- The resolver has a decoder for the headers. -/
def Accepts (resolver : Resolver T) (headers : Headers) : Prop :=
  ∃ decoder, resolver.verdict headers = .accepted decoder

/-- Whether the resolver fails on the headers. -/
def fails (resolver : Resolver T) (headers : Headers) : Bool :=
  match resolver.verdict headers with
  | .failed => true
  | _ => false

theorem get?_verdict_eq_some_iff {resolver : Resolver T} {headers : Headers}
    {decoder : Decoder T} :
    (resolver.verdict headers).get? = some decoder ↔
      resolver.verdict headers = .accepted decoder := by
  cases resolver.verdict headers <;> simp [Verdict.get?]

theorem get?_verdict_eq_none_iff {resolver : Resolver T} {headers : Headers} :
    (resolver.verdict headers).get? = none ↔ ¬ resolver.Accepts headers := by
  rw [Accepts]
  cases resolver.verdict headers <;> simp [Verdict.get?]

end Resolver

/-- The declared names accept what names one of them, and give the decoder it has. -/
theorem Declared.verdict_resolver_eq_accepted_iff {declared : Declared T} {headers : Headers}
    {decoder : Decoder T} :
    declared.resolver.verdict headers = .accepted decoder ↔
      ∃ name, headers.typeName? = some name ∧ declared.decoder? name = some decoder := by
  rw [← Resolver.get?_verdict_eq_some_iff]
  show (Verdict.ofOption (headers.typeName?.bind declared.decoder?)).get? = _ ↔ _
  rw [← Option.bind_eq_some_iff]
  cases headers.typeName?.bind declared.decoder? <;> rfl

namespace Chain

/-! ### Consulting resolvers -/

/-- The reports about those of some resolvers that fail on the headers. -/
def failures (headers : Headers) (consulted : List (Resolver T)) : List Event :=
  (consulted.filter (·.fails headers)).map fun resolver ↦ ⟨.resolverFailed resolver.name, none⟩

/-- A resolver that does not accept is passed over, and reported if it fails. -/
theorem log_resolveFrom_cons {headers : Headers} {resolver : Resolver T}
    {rest : List (Resolver T)} (h : ¬ resolver.Accepts headers) :
    (resolveFrom headers (resolver :: rest)).log =
      failures headers [resolver] ++ (resolveFrom headers rest).log := by
  rw [failures, List.filter_singleton, Resolver.fails, resolveFrom]
  cases hverdict : resolver.verdict headers with
  | accepted decoder => exact absurd ⟨decoder, hverdict⟩ h
  | declined => rfl
  | failed =>
    rw [Attempt.log_bind]
    rfl

/-- So are all those that come before the first to accept. -/
theorem log_resolveFrom_append {headers : Headers} {ahead rest : List (Resolver T)}
    (h : ∀ resolver ∈ ahead, ¬ resolver.Accepts headers) :
    (resolveFrom headers (ahead ++ rest)).log =
      failures headers ahead ++ (resolveFrom headers rest).log := by
  induction ahead with
  | nil => rfl
  | cons resolver ahead ih =>
    obtain ⟨hfirst, hahead⟩ := List.forall_mem_cons.1 h
    rw [List.cons_append, log_resolveFrom_cons hfirst, ih hahead, ← List.append_assoc]
    refine congrArg (· ++ _) ?_
    rw [failures, failures, failures, ← List.map_append, ← List.filter_append]
    rfl

/-! ### Registered resolvers -/

/-- What is registered last is consulted first. -/
theorem resolvers_foldl_register (chain : Chain T) (resolvers : List (Resolver T)) :
    (resolvers.foldl register chain).resolvers = resolvers.reverse ++ chain.resolvers := by
  induction resolvers generalizing chain with
  | nil => rfl
  | cons resolver resolvers ih =>
    rw [List.foldl_cons, ih, List.reverse_cons, List.append_assoc]
    rfl

section Registered

variable {chain : Chain T} {registered : List (Resolver T)} {headers : Headers}

/-- The last resolver registered to accept the headers decides. -/
theorem resolve?_eq_some_iff (h : chain.resolvers = registered.reverse) {decoder : Decoder T} :
    chain.resolve? headers = some decoder ↔ ∃ earlier resolver later,
      registered = earlier ++ resolver :: later ∧
        resolver.verdict headers = .accepted decoder ∧
        ∀ other ∈ later, ¬ other.Accepts headers := by
  rw [resolve?, h, List.findSome?_eq_some_iff]
  simp only [Resolver.get?_verdict_eq_some_iff, Resolver.get?_verdict_eq_none_iff]
  constructor
  · rintro ⟨ahead, resolver, behind, hsplit, haccepted, hahead⟩
    refine ⟨behind.reverse, resolver, ahead.reverse, ?_, haccepted, fun other hother ↦
      hahead other (List.mem_reverse.1 hother)⟩
    rw [← registered.reverse_reverse, hsplit]
    simp
  · rintro ⟨earlier, resolver, later, rfl, haccepted, hlater⟩
    exact ⟨later.reverse, resolver, earlier.reverse, by simp, haccepted, fun other hother ↦
      hlater other (List.mem_reverse.1 hother)⟩

theorem resolve?_eq_none_iff (h : chain.resolvers = registered.reverse) :
    chain.resolve? headers = none ↔ ∀ resolver ∈ registered, ¬ resolver.Accepts headers := by
  rw [resolve?, h, List.findSome?_eq_none_iff]
  simp only [List.mem_reverse, Resolver.get?_verdict_eq_none_iff]

/-- Only the failures of those that were registered after it are reported. -/
theorem log_resolve_of_accepts {earlier later : List (Resolver T)} {resolver : Resolver T}
    (h : chain.resolvers = (earlier ++ resolver :: later).reverse)
    (haccepts : resolver.Accepts headers) (hlater : ∀ other ∈ later, ¬ other.Accepts headers) :
    (chain.resolve headers).log = failures headers later.reverse := by
  obtain ⟨decoder, hdecoder⟩ := haccepts
  have hdecides : (resolveFrom headers (resolver :: earlier.reverse)).log = [] := by
    rw [resolveFrom, hdecoder]
    rfl
  have hconsulted : (earlier ++ resolver :: later).reverse =
      later.reverse ++ (resolver :: earlier.reverse) := by simp
  rw [resolve, h, hconsulted,
    log_resolveFrom_append fun other hother ↦ hlater other (List.mem_reverse.1 hother), hdecides,
    List.append_nil]

/-- If nobody accepts, all failures are reported, and then that nobody accepted. -/
theorem log_resolve_of_forall_not (h : chain.resolvers = registered.reverse)
    (hnone : ∀ resolver ∈ registered, ¬ resolver.Accepts headers) :
    (chain.resolve headers).log =
      failures headers registered.reverse ++ [⟨.headersRefused, none⟩] := by
  rw [resolve, h, ← List.append_nil registered.reverse,
    log_resolveFrom_append fun other hother ↦ hnone other (List.mem_reverse.1 hother),
    List.append_nil]
  rfl

end Registered

/-! ### The chains that can be built -/

variable [Payload T]

/-- A chain that resolvers were registered on, in order, on top of the declared names or of nothing.
-/
def build (standard : Bool) (resolvers : List (Resolver T)) : Chain T :=
  resolvers.foldl register (if standard then Chain.standard T else empty)

/-- All resolvers of such a chain, in the order they were registered. -/
def registered (standard : Bool) (resolvers : List (Resolver T)) : List (Resolver T) :=
  if standard then Payload.declared.resolver :: resolvers else resolvers

theorem resolvers_build (standard : Bool) (resolvers : List (Resolver T)) :
    (build standard resolvers).resolvers = (registered standard resolvers).reverse := by
  rw [build, resolvers_foldl_register, registered]
  cases standard with
  | true => exact List.reverse_cons.symm
  | false => exact List.append_nil _

/-- **Resolution.** Whatever resolvers a chain is built from, the last one registered to accept the
headers gives the decoder, and there is none exactly if all decline or fail. The log names those
that were registered after it and fail, the latest first, and ends with the report that nobody
accepted just when that is so. To resolve silently gives the same decoder; and so to read an
envelope silently, with whatever registry, gives what it gives with a report, less the fault. -/
theorem resolve_exact (standard : Bool) (resolvers : List (Resolver T)) (headers : Headers) :
    (∀ decoder, ((build standard resolvers).resolve headers).outcome = .ok decoder ↔
      ∃ earlier resolver later, registered standard resolvers = earlier ++ resolver :: later ∧
        resolver.verdict headers = .accepted decoder ∧
        ∀ other ∈ later, ¬ other.Accepts headers) ∧
    (∀ fault, ((build standard resolvers).resolve headers).outcome = .error fault ↔
      fault = .resolutionFailed headers ∧
        ∀ resolver ∈ registered standard resolvers, ¬ resolver.Accepts headers) ∧
    (∀ earlier resolver later, registered standard resolvers = earlier ++ resolver :: later →
      resolver.Accepts headers → (∀ other ∈ later, ¬ other.Accepts headers) →
      ((build standard resolvers).resolve headers).log = failures headers later.reverse) ∧
    ((∀ resolver ∈ registered standard resolvers, ¬ resolver.Accepts headers) →
      ((build standard resolvers).resolve headers).log =
        failures headers (registered standard resolvers).reverse ++ [⟨.headersRefused, none⟩]) ∧
    ((∀ name, (Notice.resolverFailed name).message = "type resolver failed") ∧
      Notice.headersRefused.message = "no type resolver accepted the headers") ∧
    (build standard resolvers).resolve? headers =
      ((build standard resolvers).resolve headers).outcome.toOption ∧
    ∀ (R : Type) [Resolves R T] (registry : R) (e : Envelope),
      e.unpack? T registry = (e.unpack T registry).outcome.toOption := by
  have hregistered := resolvers_build standard resolvers
  refine ⟨fun decoder ↦ ?_, fun fault ↦ ?_, fun earlier resolver later hsplit ↦ ?_,
    log_resolve_of_forall_not hregistered, ⟨fun _ ↦ rfl, rfl⟩, ?_,
    fun R _ registry e ↦ (e.toOption_outcome_unpack registry).symm⟩
  · rw [outcome_resolve, ← resolve?_eq_some_iff hregistered]
    cases (build standard resolvers).resolve? headers <;> simp
  · rw [outcome_resolve, ← resolve?_eq_none_iff hregistered]
    cases (build standard resolvers).resolve? headers <;> simp [eq_comm]
  · exact log_resolve_of_accepts (hsplit ▸ hregistered)
  · rw [outcome_resolve]
    cases (build standard resolvers).resolve? headers <;> rfl

section Overridden

open Inventory

/-- Four resolvers on top of the declared names: one fails, one reads what is named as another type
by the declared decoder of releases, one declines and one fails. -/
def overriding : List (Resolver Delta) :=
  [Rule.fail.resolver "old", (Rule.map "Freed" "Release").resolver "renamed",
    Rule.decline.resolver "idle", Rule.fail.resolver "broken"]

/-- Of the two that fail, only the one that was registered after the one to accept is reported. -/
theorem resolve_exact_overridden :
    registered true overriding =
      [Payload.declared.resolver, Rule.fail.resolver "old"] ++
        (Rule.map "Freed" "Release").resolver "renamed" ::
          [Rule.decline.resolver "idle", Rule.fail.resolver "broken"] ∧
      ((Rule.map "Freed" "Release").resolver "renamed" : Resolver Delta).Accepts
        (.ofTypeName "Freed") ∧
      (∀ other ∈ [Rule.decline.resolver "idle", Rule.fail.resolver "broken"],
        ¬ (other : Resolver Delta).Accepts (.ofTypeName "Freed")) ∧
      ((build true overriding).resolve (.ofTypeName "Freed")).log =
        [⟨.resolverFailed "broken", none⟩] := by
  have haccepts : ((Rule.map "Freed" "Release").resolver "renamed" : Resolver Delta).Accepts
      (.ofTypeName "Freed") := ⟨_, rfl⟩
  have hlater : ∀ other ∈ [Rule.decline.resolver "idle", Rule.fail.resolver "broken"],
      ¬ (other : Resolver Delta).Accepts (.ofTypeName "Freed") := by
    simp only [List.forall_mem_cons]
    exact ⟨nofun, nofun, nofun⟩
  exact ⟨rfl, haccepts, hlater,
    (resolve_exact true overriding (.ofTypeName "Freed")).2.2.1
      [Payload.declared.resolver, Rule.fail.resolver "old"] _ _ rfl haccepts hlater⟩

end Overridden

end Chain

end Chronicle
