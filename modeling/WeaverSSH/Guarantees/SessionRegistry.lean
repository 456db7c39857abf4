import WeaverSSH.SessionControl.Registry

/-!
# What a registry of nodes holds, and for how long

A registration either leaves the registry as it was or stores one node
(`Registry.Invariant.register_cases`), and `Registry.Sound` is kept: the nodes stored are all of the
registry's chain, each at its own place, and offer only what their own contexts cover. That a
context has not expired is checked at registration and not again.
-/

namespace WeaverSSH.SessionControl

open AuthProof SessionMux Function NodeContext List Option Registry

section

variable [Unicode]

/-- The nodes of a registry are of its chain, are where they belong, and offer what they may. -/
structure Registry.Sound (r : Registry) : Prop where
  chain : ∀ name node, r.nodes name = some node → node.context.chainID = r.chainID ∧
    node.context.chainSHA256 = r.chainSHA256 ∧ node.context.nodes = r.order
  placed : ∀ name node, r.nodes name = some node → node.id = name ∧
    node.context.currentNode = name ∧ r.order.idxOf? name = some node.index
  authorized : ∀ name node, r.nodes name = some node →
    ∀ service ∈ node.services, serviceAuthorizedByCapabilities node.context.capabilities service

/-- A sound registry, with what the induction needs besides: a chain is set as soon as a node is
stored, and contexts are stored normalised. -/
structure Registry.Invariant (r : Registry) : Prop extends r.Sound where
  empty : r.chainID = [] → ∀ name, r.nodes name = none
  normal : ∀ name node, r.nodes name = some node → ∃ c : NodeContext, node.context = c.normalized

/-- One call of `RegisterVerified`. -/
structure Registration where
  context : NodeContext
  services : List ServiceID
  clock : Time

def Registry.register (r : Registry) (call : Registration) : Registry × Except RegistryErr Node :=
  r.registerVerified call.context call.services call.clock

def Registry.after (r : Registry) (calls : List Registration) : Registry :=
  calls.foldl (fun r call => (r.register call).1) r

/-! ## One registration -/

variable {ctx : NodeContext} {services : Finset ServiceID} {r : Registry} {node : Node}

omit [Unicode] in
lemma normalizeServices_ok {services : List ServiceID}
    {normalized : Finset ServiceID} (h : normalizeServices ctx services = .ok normalized) :
    ∀ service ∈ normalized, serviceAuthorizedByCapabilities ctx.capabilities service = true := by
  simp only [normalizeServices, checks_ok, forM_eq_ok] at h
  obtain ⟨hall, rfl⟩ := h
  intro service hservice
  have hchecked := hall service (mem_toFinset.mp hservice)
  simp only [checkService, checks_ok] at hchecked
  exact hchecked.2

lemma admitRegistration_ok {call : Registration}
    (h : admitRegistration call.context call.services call.clock = .ok (ctx, services)) :
    ctx = call.context.normalized ∧ ctx.chainID ≠ [] ∧ ctx.currentNode ∈ ctx.nodes ∧
      unix call.clock < ctx.expiresAtUnix ∧
      ∀ service ∈ services, serviceAuthorizedByCapabilities ctx.capabilities service = true := by
  simp only [admitRegistration, checks_ok, mapError_eq_ok, Prod.mk.injEq] at h
  obtain ⟨⟨⟩, hvalid, hunexpired, normalized, hservices, rfl, rfl⟩ := h
  -- `Validate` looks at the context normalised once more, which is the same in these fields
  have hcurrent := (nodes_of_validate hvalid).1
  have hchain := (normalized_of_validate hvalid).2.2.2
  simp only [currentNode_normalized, nodes_normalized, chainID_normalized] at hcurrent hchain
  exact ⟨rfl, hchain, hcurrent, hunexpired, normalizeServices_ok hservices⟩

omit [Unicode] in
lemma Registry.adopt_ok {adopted : Registry} (h : r.adopt ctx = .ok adopted) :
    (adopted.chainID = ctx.chainID ∧ adopted.chainSHA256 = ctx.chainSHA256 ∧
      adopted.order = ctx.nodes) ∧ adopted.nodes = r.nodes ∧ (r.chainID ≠ [] → adopted = r) := by
  unfold adopt at h
  split_ifs at h with hfirst hother
  · cases h
    exact ⟨⟨rfl, rfl, rfl⟩, rfl, fun hset => absurd hfirst hset⟩
  · cases h
    simp only [not_or, not_not] at hother
    exact ⟨hother, rfl, fun _ => rfl⟩

omit [Unicode] in
lemma Registry.place_ok (h : r.place ctx services = .ok node) :
    node.id = ctx.currentNode ∧ node.context = ctx ∧ node.services = services ∧
      r.order.idxOf? ctx.currentNode = some node.index ∧
      ∀ existing, r.nodes ctx.currentNode = some existing →
        existing.context.issuedAtUnix ≤ ctx.issuedAtUnix := by
  simp only [place, checks_ok, elim_eq_ok] at h
  obtain ⟨index, hindex, hstale, rfl⟩ := h
  refine ⟨rfl, rfl, rfl, hindex, fun existing hexisting => ?_⟩
  simpa [hexisting] using hstale

omit [Unicode] in
lemma Registry.place_of_none
    (hmem : ctx.currentNode ∈ r.order) (hnone : r.nodes ctx.currentNode = none) :
    ∃ node, r.place ctx services = .ok node := by
  obtain ⟨index, hindex⟩ : ∃ index, r.order.idxOf? ctx.currentNode = some index := by
    rw [← isSome_iff_exists, isSome_idxOf?]
    exact hmem
  refine ⟨⟨ctx.currentNode, index, ctx, services⟩, ?_⟩
  simp only [place, hindex, hnone, elim_some, all_none]
  rfl

structure Registry.Stores (r : Registry) (call : Registration) (node : Node) : Prop where
  context : node.context = call.context.normalized
  id : node.id = node.context.currentNode
  index : node.context.nodes.idxOf? node.id = some node.index
  chain : node.context.chainID ≠ []
  same : r.chainID ≠ [] → node.context.chainID = r.chainID ∧
    node.context.chainSHA256 = r.chainSHA256 ∧ node.context.nodes = r.order
  unexpired : unix call.clock < node.context.expiresAtUnix
  newest : ∀ existing, r.nodes node.id = some existing →
    existing.context.issuedAtUnix ≤ node.context.issuedAtUnix
  authorized : ∀ service ∈ node.services,
    serviceAuthorizedByCapabilities node.context.capabilities service = true

/-- **What one registration does.** It fails and changes nothing, or it stores one node and leaves
the registry on the chain of that node. -/
lemma Registry.Invariant.register_cases (h : r.Invariant) (call : Registration) :
    (∃ e, r.register call = (r, .error e)) ∨ ∃ node, r.Stores call node ∧
      r.register call = (⟨node.context.chainID, node.context.chainSHA256, node.context.nodes,
        update r.nodes node.id (some node)⟩, .ok node.clone) := by
  unfold register registerVerified
  cases hadmitted : admitRegistration call.context call.services call.clock with
  | error e => exact .inl ⟨e, rfl⟩
  | ok admitted =>
    obtain ⟨ctx, services⟩ := admitted
    obtain ⟨hctx, hchain, hcurrent, hunexpired, hservices⟩ := admitRegistration_ok hadmitted
    dsimp only
    cases hadopt : r.adopt ctx with
    | error e => exact .inl ⟨e, rfl⟩
    | ok adopted =>
      obtain ⟨⟨hid, hsha, horder⟩, hnodes, hset⟩ := adopt_ok hadopt
      dsimp only
      cases hplace : adopted.place ctx services with
      | error e =>
        -- the chain stays set: but where it was not set before, the node could be placed
        by_cases hfirst : r.chainID = []
        · obtain ⟨node, hnode⟩ := @place_of_none ctx services adopted
            (horder ▸ hcurrent) (hnodes ▸ h.empty hfirst ctx.currentNode)
          rw [hplace] at hnode
          cases hnode
        · exact .inl ⟨e, by rw [hset hfirst]⟩
      | ok node =>
        obtain ⟨hnid, rfl, rfl, hindex, hnewest⟩ := place_ok hplace
        refine .inr ⟨node, ?_, ?_⟩
        · exact
            { context := hctx
              id := hnid
              index := by rw [hnid, ← horder, hindex]
              chain := hchain
              same := fun hne => by rw [← hset hne]; exact ⟨hid.symm, hsha.symm, horder.symm⟩
              unexpired := hunexpired
              newest := by rwa [hnid, ← hnodes]
              authorized := hservices }
        · simp only [store, hid, hsha, horder, hnodes]

lemma newRegistry_invariant : newRegistry.Invariant where
  chain _ _ h := by cases h
  placed _ _ h := by cases h
  authorized _ _ h := by cases h
  empty _ _ := rfl
  normal _ _ h := by cases h

omit [Unicode] in
/-- What is stored after a node was: that node under its name, and what was there elsewhere. -/
lemma update_eq_some {nodes : Text → Option Node} {name : Text} {stored : Node}
    (h : update nodes stored.id (some stored) name = some node) :
    (name = stored.id ∧ node = stored) ∨ (name ≠ stored.id ∧ nodes name = some node) := by
  by_cases hname : name = stored.id
  · subst hname
    rw [update_self] at h
    exact .inl ⟨rfl, (some.inj h).symm⟩
  · rw [update_of_ne hname] at h
    exact .inr ⟨hname, h⟩

lemma Registry.Invariant.register (h : r.Invariant) (call : Registration) :
    (r.register call).1.Invariant := by
  rcases h.register_cases call with ⟨e, he⟩ | ⟨stored, hstored, hregister⟩
  · rw [he]
    exact h
  rw [hregister]
  -- a node that was there keeps its chain: the registry was on it
  have hsame : ∀ name node, r.nodes name = some node →
      stored.context.chainID = r.chainID ∧ stored.context.chainSHA256 = r.chainSHA256 ∧
        stored.context.nodes = r.order := by
    intro name node hnode
    refine hstored.same fun hfirst => ?_
    rw [h.empty hfirst name] at hnode
    cases hnode
  constructor
  · constructor
    · intro name node hnode
      rcases update_eq_some hnode with ⟨-, rfl⟩ | ⟨-, hnode⟩
      · exact ⟨rfl, rfl, rfl⟩
      · obtain ⟨hid, hsha, horder⟩ := hsame name node hnode
        simpa [hid, hsha, horder] using h.chain name node hnode
    · intro name node hnode
      rcases update_eq_some hnode with ⟨rfl, rfl⟩ | ⟨-, hnode⟩
      · exact ⟨rfl, hstored.id.symm, hstored.index⟩
      · simpa [(hsame name node hnode).2.2] using h.placed name node hnode
    · intro name node hnode
      rcases update_eq_some hnode with ⟨-, rfl⟩ | ⟨-, hnode⟩
      · exact hstored.authorized
      · exact h.authorized name node hnode
  · exact fun hfirst => absurd hfirst hstored.chain
  · intro name node hnode
    rcases update_eq_some hnode with ⟨-, rfl⟩ | ⟨-, hnode⟩
    · exact ⟨call.context, hstored.context⟩
    · exact h.normal name node hnode

lemma Registry.Invariant.after (h : r.Invariant) (calls : List Registration) :
    (r.after calls).Invariant := by
  induction calls generalizing r with
  | nil => exact h
  | cons call calls ih => exact ih (h.register call)

lemma Registry.Invariant.register_newest (h : r.Invariant) (call : Registration)
    {name : Text} (hnode : r.nodes name = some node) :
    ∃ node', (r.register call).1.nodes name = some node' ∧
      node.context.issuedAtUnix ≤ node'.context.issuedAtUnix := by
  rcases h.register_cases call with ⟨e, he⟩ | ⟨stored, hstored, hregister⟩
  · exact ⟨node, by rw [he]; exact hnode, le_rfl⟩
  · rw [hregister]
    by_cases hname : name = stored.id
    · subst hname
      exact ⟨stored, update_self .., hstored.newest node hnode⟩
    · exact ⟨node, by simpa [update_of_ne hname] using hnode, le_rfl⟩

/-- **The registry of a session.** Whatever was registered before, the registry is sound; a call
that fails changes nothing, and no call loses a node or makes its context an older one. -/
theorem session_registry_sound (calls : List Registration) (call : Registration) :
    let r := newRegistry.after calls
    r.Sound ∧ (∀ e, (r.register call).2 = .error e → (r.register call).1 = r) ∧
    ∀ name node, r.nodes name = some node → ∃ node', (r.register call).1.nodes name = some node' ∧
        node.context.issuedAtUnix ≤ node'.context.issuedAtUnix := by
  intro r
  have h : r.Invariant := newRegistry_invariant.after calls
  refine ⟨h.toSound, fun e he => ?_, fun name node hnode => h.register_newest call hnode⟩
  rcases h.register_cases call with ⟨e', he'⟩ | ⟨stored, -, hregister⟩
  · rw [he']
  · rw [hregister] at he
    cases he

/-! ## Authority over time -/

/-- A call on a registry, with the clock at it. -/
inductive Call where
  | register (call : Registration)
  | authorize (nodeRef currentNode : Text) (service : ServiceID) (clock : Time)

/-- What a call leaves: an authorisation changes nothing. -/
def Registry.serve (r : Registry) : Call → Registry
  | .register call => (r.register call).1
  | .authorize .. => r

lemma Registry.Invariant.serve (h : r.Invariant) (call : Call) : (r.serve call).Invariant := by
  cases call with
  | register call => exact h.register call
  | authorize => exact h

lemma Registry.Invariant.serves (h : r.Invariant) (calls : List Call) :
    (calls.foldl Registry.serve r).Invariant := by
  induction calls generalizing r with
  | nil => exact h
  | cons call calls ih => exact ih (h.serve call)

/-- What is stored was registered. -/
lemma exists_registration (calls : List Call) {name : Text} {stored : Node}
    (h : (calls.foldl serve newRegistry).nodes name = some stored) :
    ∃ reg, .register reg ∈ calls ∧ stored.context = reg.context.normalized := by
  induction calls using List.reverseRecOn generalizing name stored with
  | nil => cases h
  | append_singleton calls last ih =>
    rw [foldl_append] at h
    have hold {name : Text} {stored : Node}
        (h : (calls.foldl serve newRegistry).nodes name = some stored) :
        ∃ reg, .register reg ∈ calls ++ [last] ∧ stored.context = reg.context.normalized := by
      obtain ⟨reg, hreg, hcontext⟩ := ih h
      exact ⟨reg, mem_append_left _ hreg, hcontext⟩
    cases last with
    | authorize => exact hold h
    | register call =>
      change ((calls.foldl serve newRegistry).register call).1.nodes name = some stored at h
      rcases (newRegistry_invariant.serves calls).register_cases call with
        ⟨e, he⟩ | ⟨node, hnode, hregister⟩
      · rw [he] at h
        exact hold h
      · rw [hregister] at h
        rcases update_eq_some h with ⟨-, rfl⟩ | ⟨-, h⟩
        · exact ⟨call, by simp, hnode.context⟩
        · exact hold h

lemma Registry.resolve_ok {ref current : Text} (h : r.resolve ref current = .ok node) :
    ∃ name stored, r.nodes name = some stored ∧ node = stored.clone := by
  simp only [resolve, checks_ok, elim_eq_ok] at h
  obtain ⟨name, -, -, stored, hstored, rfl⟩ := h
  exact ⟨name, stored, hstored, rfl⟩

/-- A node that is stored can be asked for, by a word for the current node. -/
lemma Registry.Invariant.authorize_self (h : r.Invariant) {name : Text} {stored : Node}
    (hstored : r.nodes name = some stored) {service : ServiceID}
    (hservice : service ∈ stored.services) : r.authorize "." name service = .ok stored.clone := by
  obtain ⟨c, hc⟩ := h.normal name stored hstored
  have hmem : name ∈ r.order := by
    rw [← isSome_idxOf?, (h.placed name stored hstored).2.2]
    rfl
  rw [← (h.chain name stored hstored).2.2, hc] at hmem
  obtain ⟨htrim, hne⟩ := NodeContext.mem_nodes hmem
  have hdot : toLower (trimSpace (text ".")) = text "." :=
    congrArg (fun c => [Rune.char c]) (Unicode.lower_ascii '.' (by decide))
  have hname : r.nameOf (trimSpace ".") (trimSpace name) = .ok name := by
    rw [nameOf, hdot, htrim]
    rfl
  have hsupports : stored.clone.supports service = true := decide_eq_true hservice
  have hresolve : r.resolve "." name = .ok stored.clone := by
    rw [resolve, hname, ok_bind, require_of_true (decide_eq_true hne), ok_bind, hstored]
    rfl
  rw [authorize, hresolve, ok_bind, require_of_true hsupports]
  rfl

/-- Every authorisation is of a node that was registered with a context that has not expired and
covers the service. -/
def Lawful (calls : List Call) : Prop :=
  ∀ before nodeRef currentNode service t after node,
    calls = before ++ .authorize nodeRef currentNode service t :: after →
    (before.foldl serve newRegistry).authorize nodeRef currentNode service = .ok node →
    ∃ reg, .register reg ∈ before ∧ node.id = reg.context.normalized.currentNode ∧
      node.context.expiresAtUnix = reg.context.expiresAtUnix ∧ unix t < reg.context.expiresAtUnix ∧
      serviceAuthorizedByCapabilities reg.context.normalized.capabilities service = true

/-- No authorisation is asked for when a context in the registry has expired. -/
def Prompt (calls : List Call) : Prop :=
  ∀ before nodeRef currentNode service t after,
    calls = before ++ .authorize nodeRef currentNode service t :: after →
    ∀ name stored, (before.foldl serve newRegistry).nodes name = some stored →
      unix t < stored.context.expiresAtUnix

/-- **Authority over time.** Calls among which no authorisation is asked for when a context in the
registry has expired are lawful. And where one has expired, one more authorisation breaks the law,
for any service that its node offers. -/
theorem authority_within_lifetime (calls : List Call) :
    (Prompt calls → Lawful calls) ∧
    ∀ name stored service t, (calls.foldl serve newRegistry).nodes name = some stored →
      service ∈ stored.services → stored.context.expiresAtUnix ≤ unix t →
      ¬ Lawful (calls ++ [.authorize "." name service t]) := by
  constructor
  · intro hprompt before nodeRef currentNode service t after node hcalls hauthorize
    have hinv : (before.foldl serve newRegistry).Invariant := newRegistry_invariant.serves before
    simp only [Registry.authorize, checks_ok, Node.supports] at hauthorize
    obtain ⟨found, hresolve, hservice, rfl⟩ := hauthorize
    obtain ⟨name, stored, hstored, rfl⟩ := resolve_ok hresolve
    obtain ⟨reg, hreg, hcontext⟩ := exists_registration before hstored
    have hlives := hprompt _ _ _ _ _ _ hcalls name stored hstored
    have hcovers := hinv.authorized name stored hstored service hservice
    obtain ⟨hid, hcurrent, -⟩ := hinv.placed name stored hstored
    rw [hcontext] at hlives hcovers hcurrent
    refine ⟨reg, hreg, hid.trans hcurrent.symm, ?_, hlives, hcovers⟩
    change stored.context.expiresAtUnix = _
    rw [hcontext]
    rfl
  · intro name stored service t hstored hservice hexpired hlawful
    have hauthorize := (newRegistry_invariant.serves calls).authorize_self hstored hservice
    obtain ⟨reg, -, -, hsame, hlives, -⟩ := hlawful calls "." name service t [] _ rfl hauthorize
    rw [← hsame] at hlives
    exact absurd hlives (not_lt.mpr hexpired)

end

section Sample

/-- A context of a node in a chain, good for a minute. -/
def minuteContext (nodes : List Text) (current : Text) : NodeContext :=
  { version := nodeContextVersion, algorithm := AuthProof.algorithm, issuerPeerID := "issuer"
    audience := audienceNodeContext, chainID := "chain"
    chainSHA256 := replicate 64 (.char '0'), nodes := nodes, currentNode := current
    originNode := nodes.headD [], endpointNode := nodes.getLastD []
    capabilities := [capabilityNodeContext, "vfs.mesh"], nonce := "nonce"
    issuedAtUnix := 1, expiresAtUnix := 61 }

def secondContext : NodeContext := minuteContext ["a", "b"] "b"

/-- The node registers its file service at the tenth second. -/
def minuteCalls : List Call := [.register ⟨secondContext, [serviceFS], 10 * second⟩]

attribute [local instance] asciiCase

def minuteNode : Node := ⟨"b", 1, secondContext, {serviceControl, serviceFS}⟩

lemma minuteCalls_authorize :
    (minuteCalls.foldl serve newRegistry).authorize "b" "a" serviceFS = .ok minuteNode ∧
    (minuteCalls.foldl serve newRegistry).nodes "b" = some minuteNode := by
  decide +kernel

/-- In the twentieth second the authorisation rests on a context that is good; a day later none
would. -/
theorem authority_within_lifetime_early :
    Lawful (minuteCalls ++ [.authorize "b" "a" serviceFS (20 * second)]) ∧
      ¬ Lawful (minuteCalls ++ [.authorize "." "b" serviceFS (86400 * second)]) := by
  constructor
  · refine (authority_within_lifetime _).1 ?_
    intro before nodeRef currentNode service t after hcalls name stored hstored
    obtain ⟨rfl, rfl⟩ : before = minuteCalls ∧ t = 20 * second := by
      rcases before with _ | ⟨first, _ | ⟨next, before⟩⟩
      · simp [minuteCalls] at hcalls
      · simp only [minuteCalls, cons_append, nil_append, cons.injEq, Call.authorize.injEq] at hcalls
        exact ⟨by rw [← hcalls.1]; rfl, hcalls.2.1.2.2.2.symm⟩
      · simp [minuteCalls] at hcalls
    obtain ⟨reg, hreg, hcontext⟩ := exists_registration minuteCalls hstored
    obtain rfl : reg = ⟨secondContext, [serviceFS], 10 * second⟩ := by
      simpa [minuteCalls] using hreg
    rw [hcontext]
    decide
  · exact (authority_within_lifetime minuteCalls).2 "b" minuteNode serviceFS _
      minuteCalls_authorize.2 (by decide) (by decide)

/-- **Authority outlives its context**: a day later the node is authorised all the same. -/
theorem expired_authority :
    (minuteCalls.foldl serve newRegistry).authorize "b" "a" serviceFS =
      .ok minuteNode ∧ ¬ unix (86400 * second) < minuteNode.context.expiresAtUnix :=
  ⟨minuteCalls_authorize.1, by decide⟩

end Sample

end WeaverSSH.SessionControl
