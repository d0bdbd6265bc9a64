import Mathlib.Data.List.MinMax
import Mathlib.Data.Prod.Lex
import CredentialBroker.Filter.Basic

/-!
# Filter chains

What Praxis does with a chain of filters, as far as it decides where a request goes and with which
credentials. Praxis is not part of this repository; what is taken from it is what `INTERNALS.md`
documents and `tests/gateway.py` exercises:

* Conditions and the router see the client's request: the raw path without its query, and all of the
  client's headers. Removals take effect when the request is sent.
* A path prefix matches whole segments, and methods compare without regard to case.
* A condition matches the *first* value of a header, the router *any* of its values, and the router
  takes the most specific route that matches.
* `credential_injection` sets its header after all removals. What the client names in `Connection`
  is dropped last, as hop-by-hop.

The configuration is data, `run` its meaning. A filter of Praxis's own that may answer a request but
leaves its headers alone is `external`, and what it answers is given by the environment.
-/

namespace CredentialBroker.Chain

/-! ## Conditions -/

/-- A path under `stem`, in whole segments. -/
def UnderPrefix (stem path : Bytes) : Prop := path = stem ∨ stem ++ ascii "/" <+: path

instance (stem path : Bytes) : Decidable (UnderPrefix stem path) :=
  inferInstanceAs (Decidable (_ ∨ _))

/-- What a condition asks of a request: everything it gives. -/
structure Criteria where
  path : Option Bytes := none
  pathPrefix : Option Bytes := none
  /-- Any method if there is none. -/
  methods : List Bytes := []
  headers : List (String × Bytes) := []

/-- The request meets the criteria, each header by its first value. -/
def Criteria.Holds (criteria : Criteria) (request : Request) : Prop :=
  (∀ path ∈ criteria.path, request.path = path) ∧
    (∀ stem ∈ criteria.pathPrefix, UnderPrefix stem request.path) ∧
    (criteria.methods = [] ∨
      toAsciiLowercase request.method ∈ criteria.methods.map toAsciiLowercase) ∧
    ∀ field ∈ criteria.headers, request.headers.get field.1 = some field.2

instance (criteria : Criteria) (request : Request) : Decidable (criteria.Holds request) :=
  inferInstanceAs (Decidable (_ ∧ _))

inductive Condition where
  | when (criteria : Criteria)
  /-- `unless`, which is a keyword here. -/
  | exceptWhen (criteria : Criteria)

def Condition.Holds (request : Request) : Condition → Prop
  | when criteria => criteria.Holds request
  | exceptWhen criteria => ¬ criteria.Holds request

instance (request : Request) : DecidablePred (Condition.Holds request)
  | .when criteria => inferInstanceAs (Decidable (criteria.Holds request))
  | .exceptWhen criteria => inferInstanceAs (Decidable (¬ criteria.Holds request))

/-! ## Routes -/

inductive PathMatch where
  | exact (path : Bytes)
  | under (stem : Bytes)
  deriving DecidableEq

def PathMatch.Holds (path : Bytes) : PathMatch → Prop
  | exact whole => path = whole
  | under stem => UnderPrefix stem path

instance (path : Bytes) : DecidablePred (PathMatch.Holds path)
  | .exact whole => inferInstanceAs (Decidable (path = whole))
  | .under stem => inferInstanceAs (Decidable (UnderPrefix stem path))

/-- A route of the router. -/
structure Route where
  path : PathMatch
  headers : List (String × Bytes) := []
  cluster : String
  deriving DecidableEq

/-- The route takes the request, each header by any of its values. -/
def Route.Takes (request : Request) (route : Route) : Prop :=
  route.path.Holds request.path ∧
    ∀ field ∈ route.headers, field.2 ∈ request.headers.getAll field.1

instance (request : Request) : DecidablePred (Route.Takes request) := fun _ =>
  inferInstanceAs (Decidable (_ ∧ _))

/-- How specific a route is: an exact path before a prefix, a longer one before a shorter, and then
the number of headers. -/
def Route.specificity (route : Route) : ℕ ×ₗ ℕ ×ₗ ℕ :=
  match route.path with
  | .exact path => toLex (1, toLex (path.length, route.headers.length))
  | .under stem => toLex (0, toLex (stem.length, route.headers.length))

/-- The route of a request: the most specific one that takes it. -/
def pick (routes : List Route) (request : Request) : Option Route :=
  (routes.filter (fun route => route.Takes request)).argmax Route.specificity

theorem pick_mem {routes : List Route} {request : Request} {route : Route}
    (h : pick routes request = some route) : route ∈ routes ∧ route.Takes request := by
  have hmem := List.argmax_mem (Option.mem_def.mpr h)
  rwa [List.mem_filter, decide_eq_true_eq] at hmem

theorem specificity_le_pick {routes : List Route} {request : Request} {route other : Route}
    (h : pick routes request = some route) (hother : other ∈ routes)
    (htakes : other.Takes request) : other.specificity ≤ route.specificity :=
  List.le_of_mem_argmax (List.mem_filter.mpr ⟨hother, decide_eq_true htakes⟩) (Option.mem_def.mpr h)

/-! ## Filters -/

/-- A credential `credential_injection` adds for a cluster. -/
structure Injection where
  cluster : String
  header : String
  value : Bytes

inductive Filter where
  | staticResponse (rejection : Rejection)
  | external (name : String)
  | router (routes : List Route)
  | runToken (filter : RunTokenFilter)
  | pathRewrite (stripPrefix : Bytes)
  | headers (remove : List String) (set add : HeaderMap)
  | credentialInjection (clusters : List Injection)
  | loadBalancer (endpoints : Assoc String String)

/-- A filter and when it applies. -/
structure Entry where
  conditions : List Condition := []
  filter : Filter

def Entry.Applies (request : Request) (entry : Entry) : Prop :=
  ∀ condition ∈ entry.conditions, condition.Holds request

instance (request : Request) : DecidablePred (Entry.Applies request) := fun entry =>
  inferInstanceAs (Decidable (∀ condition ∈ entry.conditions, condition.Holds request))

/-- A request on its way through the chain. -/
structure Flow (H : Type) [DecidableEq H] where
  world : World H
  cluster : Option String := none
  /-- What `run_token` wrote. -/
  context : Context := {}
  removed : List String := []
  set : HeaderMap := []
  added : HeaderMap := []
  path : Bytes
  credential : Option (String × Bytes) := none
  endpoint : Option String := none

/-- What a chain draws from outside: what `run_token` does, what the other filters answer, and
Praxis's own 404. -/
structure Environment (H : Type) [DecidableEq H] where
  out : Outside
  answers : String → Request → Flow H → Option Rejection
  notFound : Rejection

section Running

variable {H : Type} [DecidableEq H] (hash : Bytes → H) (env : Environment H) (request : Request)

/-- What a filter that applies does: it answers the request, or lets it go on. -/
def Filter.apply (flow : Flow H) : Filter → Except (Except String FilterAction) (Flow H)
  | .staticResponse rejection => .error (.ok (.reject rejection))
  | .external name =>
    match env.answers name request flow with
    | some rejection => .error (.ok (.reject rejection))
    | none => .ok flow
  | .router routes =>
    match pick routes request with
    | some route => .ok { flow with cluster := some route.cluster }
    | none => .error (.ok (.reject env.notFound))
  | .runToken filter =>
    match filter.onRequest hash flow.world env.out request flow.cluster with
    | (world, context, .ok .proceed) => .ok { flow with world := world, context := context }
    | (_, _, answer) => .error answer
  | .pathRewrite stem => .ok { flow with path := (stem.isPrefixOf? flow.path).getD flow.path }
  | .headers remove set add =>
    .ok { flow with
      removed := flow.removed ++ remove
      set := flow.set ++ set
      added := flow.added ++ add }
  | .credentialInjection clusters =>
    match clusters.find? (fun injection => some injection.cluster = flow.cluster) with
    | some injection => .ok { flow with credential := some (injection.header, injection.value) }
    | none => .ok flow
  | .loadBalancer endpoints => .ok { flow with endpoint := flow.cluster.bind endpoints.lookup }

/-- One entry of a chain. -/
def Entry.step (flow : Flow H) (entry : Entry) : Except (Except String FilterAction) (Flow H) :=
  if entry.Applies request then entry.filter.apply hash env request flow else .ok flow

/-- A chain from some flow on. -/
def runFrom (chain : List Entry) (flow : Flow H) : Except (Except String FilterAction) (Flow H) :=
  chain.foldlM (Entry.step hash env request) flow

/-- A chain, for a request that arrives in `world`: an answer, or the request that is sent. -/
def run (chain : List Entry) (world : World H) : Except (Except String FilterAction) (Flow H) :=
  runFrom hash env request chain { world := world, path := request.path }

end Running

/-! ## What is sent -/

/-- A list item without the blanks around it. -/
def trim (bs : Bytes) : Bytes :=
  let blank : UInt8 → Bool := fun b => b = 32 || b = 9
  ((bs.dropWhile blank).reverse.dropWhile blank).reverse

/-- The header names a request lists in `Connection`, in lower case. -/
def connectionNames (headers : HeaderMap) : List String :=
  ((headers.getAll "connection").flatMap (fun value => value.splitOn 44)).map fun name =>
    asString (toAsciiLowercase (trim name))

namespace Flow

variable {H : Type} [DecidableEq H]

/-- The headers that are not the client's: removed by `run_token` or a `headers` filter. -/
def removals (flow : Flow H) : List String := flow.context.headersToRemove ++ flow.removed

/-- The headers the chain gives the request, before its credential. -/
def rewritten (flow : Flow H) (request : Request) : HeaderMap :=
  (request.headers.removeAll flow.removals).removeAll (flow.set.map Prod.fst) ++
    flow.set ++ flow.added

/-- The headers the chain sends the request with. -/
def sent (flow : Flow H) (request : Request) : HeaderMap :=
  match flow.credential with
  | none => flow.rewritten request
  | some (name, value) => (flow.rewritten request).removeAll [name] ++ [(name, value)]

/-- The headers that reach the upstream: those sent, less what the client named hop-by-hop. -/
def received (flow : Flow H) (request : Request) : HeaderMap :=
  (flow.sent request).removeAll (connectionNames request.headers)

end Flow

end CredentialBroker.Chain
