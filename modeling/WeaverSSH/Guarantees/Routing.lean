import WeaverSSH.Framework.Sha256
import WeaverSSH.Guarantees.Resolvers
import WeaverSSH.SessionRoute.Router

/-!
# Where a request ends

A request is sent off at one node of a chain and passed on at each node it comes to (`journey`),
with anything to go by there (`Site`). `Routed` is what it is for. The target is passed on by name,
and read again: `request_routed` says for which it goes well. The names of the chain, and its id,
have to survive JSON, and the target's must not be one of the words that stand for a place.
-/

namespace WeaverSSH.SessionRoute

open AuthProof SessionControl SessionMux NodeContext Router Except List

/-- What there is at a node, when a request comes to it. -/
structure Site where
  leased : Bool
  currentBinding : Text
  currentMux : Bool
  surroundings : Surroundings

def Site.router (site : Site) (ctx : NodeContext) (peer : Text) : Router :=
  ⟨site.leased, ctx, site.currentBinding, site.currentMux, peer⟩

/-- A request at a node: where it came from, and the reference it came with. -/
structure Visit where
  previous : Text
  node : Text
  nodeRef : Text
deriving DecidableEq, Repr

section

variable [Unicode]

structure Chain (nodes : List Text) (contexts : Text → NodeContext) : Prop where
  valid : ∀ node ∈ nodes, (contexts node).validate = .ok ()
  same : ∀ node ∈ nodes, (contexts node).normalized.nodes = nodes
  current : ∀ node ∈ nodes, (contexts node).normalized.currentNode = node
  chainID : ∀ node ∈ nodes, ∀ node' ∈ nodes,
    (contexts node).normalized.chainID = (contexts node').normalized.chainID

variable [SHA256]

def forward (contexts : Text → NodeContext) (service : ServiceID) (site : Site) (visit : Visit) :
    Except RouteErr Visit := do
  let sent ← (site.router (contexts visit.node) visit.previous).openForward site.surroundings
    visit.nodeRef service
  return ⟨visit.node, sent.peer, received sent.target⟩

/-- Where a request is after some more hops than the first. The first is made with a session with
`peer`. -/
def journey (contexts : Text → NodeContext) (service : ServiceID) (sites : ℕ → Text → Site)
    (origin peer ref : Text) : ℕ → Except RouteErr Visit
  | 0 => do
    let site := sites 0 origin
    let sent ← (site.router (contexts origin) peer).openLocal site.surroundings ref service
    return ⟨origin, sent.peer, received sent.target⟩
  | hops + 1 => do
    let visit ← journey contexts service sites origin peer ref hops
    forward contexts service (sites (hops + 1) visit.node) visit

/-- The files have an entry for a session with a neighbour, as it was made and then written. -/
structure Linked (site : Site) (ctx : NodeContext) (peer : Text) (disk : Disk) : Prop where
  registered : ∃ registry entry binding socket pid startedAt,
    disk.routes = .ok (some registry) ∧ registry.version = registryVersion ∧
      newEntry ctx binding socket peer pid startedAt = .ok entry ∧
      entry.scrub ∈ registry.entries ∧ entry.scrub.binding ≠ trimSpace site.currentBinding
  leases : ∃ file registry, disk.leases = .ok file ∧ snapshotUnlocked file = .ok registry

/-- A session with a neighbour is registered whenever the files are read, and brokers answer. -/
structure Site.Live (site : Site) (ctx : NodeContext) (peer : Text) : Prop where
  planned : Linked site ctx peer site.surroundings.planned
  disk : ∀ attempt, Linked site ctx peer (site.surroundings.disk attempt)
  dial : ∀ attempt entry, site.surroundings.dial attempt entry = .connected

/-- Every node has a live session with each of its neighbours. -/
def AllLive (nodes : List Text) (contexts : Text → NodeContext) (sites : ℕ → Text → Site) : Prop :=
  ∀ hops, ∀ node ∈ nodes, ∀ neighbour ∈ nodes,
    (indexOf nodes node - indexOf nodes neighbour).natAbs = 1 →
      (sites hops node).Live (contexts node) neighbour

/-- From one index to another, one step closer to a third. -/
def Closer (target i j : ℤ) : Prop :=
  (j - i).natAbs = 1 ∧ (j - target).natAbs < (i - target).natAbs

structure Routed (nodes : List Text) (contexts : Text → NodeContext) (service : ServiceID)
    (origin ref target : Text) : Prop where
  read : ∀ sites peer hops visit, journey contexts service sites origin peer ref hops = .ok visit →
      visit.node ∈ nodes ∧ ∃ index, resolveNode (contexts visit.node) visit.nodeRef =
        .ok (target, index)
  closer : ∀ sites peer hops visit,
    journey contexts service sites origin peer ref hops = .ok visit →
      Closer (indexOf nodes target) (indexOf nodes visit.previous) (indexOf nodes visit.node)
  back : ∀ sites peer hops visit site onward,
    journey contexts service sites origin peer ref hops = .ok visit →
      forward contexts service site visit = .ok onward → onward.node ≠ visit.previous
  ends : ∀ sites peer hops visit site,
    journey contexts service sites origin peer ref hops = .ok visit →
      (forward contexts service site visit = .error .targetLocal ↔ visit.node = target)
  arrives : ∀ sites peer, origin ≠ target → AllLive nodes contexts sites →
    ∃ hops visit, journey contexts service sites origin peer ref hops = .ok visit ∧
      visit.node = target

/-- What a target is read alike by at every node. -/
structure Legible (nodes : List Text) (contexts : Text → NodeContext) (target : Text) : Prop where
  names : ∀ node ∈ nodes, validUTF8 node = true
  chainID : ∀ node ∈ nodes, validUTF8 (contexts node).normalized.chainID = true
  word : ∀ word, nodeAliases.lookup (toLower target) = some word →
    word = .endpoint ∧ nodes.getLast? = some target

/-! ## The chain -/

variable {node : Text}

omit [Unicode] [SHA256] in
lemma exists_indexOf {nodes : List Text} (h : node ∈ nodes) :
    ∃ i : ℕ, indexOf nodes node = i ∧ i < nodes.length := by
  obtain ⟨i, hi⟩ : ∃ i, nodes.idxOf? node = some i := by
    rw [← Option.isSome_iff_exists, isSome_idxOf?]
    exact h
  obtain ⟨hlt, -⟩ := idxOf?_eq_some_iff.mp hi
  exact ⟨i, indexOf_eq_iff.mpr hi, hlt⟩

omit [Unicode] [SHA256] in
lemma indexOf_inj {nodes : List Text} (hnodup : nodes.Nodup) {node node' : Text} (h : node ∈ nodes)
    (h' : node' ∈ nodes) (heq : indexOf nodes node = indexOf nodes node') : node = node' := by
  have hleft := (standsAt_iff hnodup).mpr ⟨h, rfl⟩
  have hright := (standsAt_iff hnodup).mpr ⟨h', heq.symm⟩
  simp only [standsAt, checks_ok] at hleft hright
  exact Option.some.inj (hleft.2.symm.trans hright.2)

section

variable {nodes : List Text} {contexts : Text → NodeContext} (hchain : Chain nodes contexts)

include hchain

omit [SHA256] in
lemma Chain.nodup (h : node ∈ nodes) : nodes.Nodup := by
  have hnodup := nodup_nodes (contexts node)
  rwa [hchain.same node h] at hnodup

omit [SHA256] in
lemma Chain.position_eq (h : node ∈ nodes) : position (contexts node) = indexOf nodes node := by
  rw [position, hchain.same node h, hchain.current node h]

omit [SHA256] in
lemma Chain.trimmed (h : node ∈ nodes) : trimSpace node = node := by
  have hmem : node ∈ (contexts node).normalized.nodes := by rwa [hchain.same node h]
  exact (mem_nodes hmem).1

omit [SHA256] in
lemma Chain.resolveNode_iff {node ref name : Text} {index : ℕ} (h : node ∈ nodes) :
    resolveNode (contexts node) ref = .ok (name, index) ↔
      nameIn (contexts node).normalized (trimSpace ref) = .ok name ∧ name ∈ nodes ∧
        indexOf nodes name = index := by
  rw [resolveNode_eq_ok, hchain.same node h, indexOf_eq_iff]
  constructor
  · rintro ⟨hname, hindex⟩
    refine ⟨hname, ?_, hindex⟩
    rw [← isSome_idxOf?, hindex]
    rfl
  · rintro ⟨hname, -, hindex⟩
    exact ⟨hname, hindex⟩

omit [SHA256] in
lemma Chain.closer_of_standsAt {node target peer : Text} (h : node ∈ nodes) {index : ℕ}
    (hindex : indexOf nodes target = index) (hne : (index : ℤ) ≠ position (contexts node))
    (hstands : standsAt (contexts node).normalized.nodes
      (towards (position (contexts node)) index) peer = true) :
    peer ∈ nodes ∧ Closer (indexOf nodes target) (indexOf nodes node) (indexOf nodes peer) := by
  rw [hchain.same node h, standsAt_iff (hchain.nodup h)] at hstands
  rw [hchain.position_eq h] at hne hstands
  refine ⟨hstands.1, ?_⟩
  rw [hindex, hstands.2, Closer, towards]
  split <;> omega

omit [SHA256] in
lemma Chain.exists_towards {node target : Text} (hnode : node ∈ nodes) (htarget : target ∈ nodes)
    (hne : node ≠ target) : ∃ peer ∈ nodes,
      indexOf nodes peer = towards (indexOf nodes node) (indexOf nodes target) := by
  have hnodup := hchain.nodup hnode
  obtain ⟨i, hi, hilt⟩ := exists_indexOf hnode
  obtain ⟨j, hj, hjlt⟩ := exists_indexOf htarget
  have hdiff : indexOf nodes node ≠ indexOf nodes target := fun heq =>
    hne (indexOf_inj hnodup hnode htarget heq)
  have hrange : 0 ≤ towards (indexOf nodes node) (indexOf nodes target) ∧
      (towards (indexOf nodes node) (indexOf nodes target)).toNat < nodes.length := by
    unfold towards
    split <;> omega
  have hstands : standsAt nodes (towards (indexOf nodes node) (indexOf nodes target))
      nodes[(towards (indexOf nodes node) (indexOf nodes target)).toNat] = true := by
    simp only [standsAt, checks_ok, List.getElem?_eq_getElem hrange.2, and_true]
    omega
  exact ⟨_, (standsAt_iff hnodup).mp hstands⟩

/-! ## A legible target -/

section

variable {target : Text} (hlegible : Legible nodes contexts target) (htarget : target ∈ nodes)

include hlegible htarget

omit [SHA256] in
lemma Legible.received : received target = target := by
  rw [SessionRoute.received, scrub_of_valid (hlegible.names target htarget), hchain.trimmed htarget]

omit [SHA256] in
lemma Legible.resolveNode (h : node ∈ nodes) {index : ℕ} (hindex : indexOf nodes target = index) :
    resolveNode (contexts node) target = .ok (target, index) := by
  rw [hchain.resolveNode_iff h, hchain.trimmed htarget]
  refine ⟨?_, htarget, hindex⟩
  unfold nameIn
  cases hword : nodeAliases.lookup (toLower target) with
  | none => rfl
  | some word =>
    obtain ⟨rfl, hlast⟩ := hlegible.word word hword
    dsimp only
    rw [hchain.same node h, hlast, Option.elim_some]

omit [SHA256] in
lemma Legible.closer_of_faces {node peer : Text} (h : node ∈ nodes)
    (hfaces : Faces (contexts node) target peer) :
    peer ∈ nodes ∧ Closer (indexOf nodes target) (indexOf nodes node) (indexOf nodes peer) := by
  obtain ⟨name, index, hname, hne, hstands⟩ := hfaces
  obtain ⟨j, hj, -⟩ := exists_indexOf htarget
  rw [hlegible.resolveNode hchain htarget h hj] at hname
  cases hname
  exact hchain.closer_of_standsAt h hj hne hstands

end

/-- A request on its way to a target. -/
structure Heading (nodes : List Text) (target : Text) (visit : Visit) : Prop where
  previous : visit.previous ∈ nodes
  node : visit.node ∈ nodes
  nodeRef : visit.nodeRef = target
  closer : Closer (indexOf nodes target) (indexOf nodes visit.previous) (indexOf nodes visit.node)

variable {visit : Visit}

section

variable {target : Text} (hlegible : Legible nodes contexts target) (htarget : target ∈ nodes)
  {service : ServiceID}

include hlegible htarget

variable {site : Site}

/-- The step: a hop goes on to the same target. -/
lemma Heading.forward {visit onward : Visit} (h : Heading nodes target visit)
    (hforward : forward contexts service site visit = .ok onward) :
    Heading nodes target onward ∧ onward.previous = visit.node := by
  simp only [SessionRoute.forward, checks_ok] at hforward
  obtain ⟨sent, hsent, rfl⟩ := hforward
  obtain ⟨index, hname, -, hfaces⟩ := openForward_ok hsent
  obtain ⟨j, hj, -⟩ := exists_indexOf htarget
  change resolveNode (contexts visit.node) visit.nodeRef = _ at hname
  rw [h.nodeRef, hlegible.resolveNode hchain htarget h.node hj] at hname
  obtain ⟨hsame, -⟩ := Prod.mk.inj (ok.inj hname)
  rw [← hsame] at hfaces ⊢
  obtain ⟨hpeer, hcloser⟩ := hlegible.closer_of_faces hchain htarget h.node hfaces
  exact ⟨⟨h.node, hpeer, hlegible.received hchain htarget, hcloser⟩, rfl⟩

/-- The run: wherever a request is, it is on its way to the target. -/
lemma heading_of_journey {sites : ℕ → Text → Site} {origin peer ref : Text} {i : ℕ}
    (horigin : origin ∈ nodes) (href : resolveNode (contexts origin) ref = .ok (target, i))
    {hops : ℕ} (h : journey contexts service sites origin peer ref hops = .ok visit) :
    Heading nodes target visit := by
  induction hops generalizing visit with
  | zero =>
    simp only [journey, checks_ok] at h
    obtain ⟨sent, hsent, rfl⟩ := h
    obtain ⟨index, hname, hne, hnext⟩ := openLocal_ok hsent
    change resolveNode (contexts origin) ref = _ at hname
    rw [href] at hname
    obtain ⟨hsame, rfl⟩ := Prod.mk.inj (ok.inj hname)
    rw [← hsame] at hnext ⊢
    have hindex := ((hchain.resolveNode_iff horigin).mp href).2.2
    obtain ⟨hpeer, hcloser⟩ : sent.peer ∈ nodes ∧
        Closer (indexOf nodes target) (indexOf nodes origin) (indexOf nodes sent.peer) := by
      rcases hnext with ⟨-, hstands⟩ | ⟨attempt, candidate, hpeer, hfound⟩
      · exact hchain.closer_of_standsAt horigin hindex hne hstands
      · rw [← hpeer]
        exact hlegible.closer_of_faces hchain htarget horigin (resolveAdjacent_ok hfound)
    exact ⟨horigin, hpeer, hlegible.received hchain htarget, hcloser⟩
  | succ hops ih =>
    simp only [journey, bind_eq_ok] at h
    obtain ⟨before, hbefore, h⟩ := h
    exact ((ih hbefore).forward hchain hlegible htarget h).1

omit htarget [SHA256] in
lemma Legible.scrub_newEntry {node binding socket peer : Text} {pid : ℤ} {startedAt : Time}
    {entry : Entry} (h : node ∈ nodes)
    (hentry : newEntry (contexts node) binding socket peer pid startedAt = .ok entry) :
    normalizeEntry entry.scrub = entry.scrub ∧ validateEntry entry.scrub = .ok () ∧
      entry.scrub.localNode = node ∧ entry.scrub.chainID = (contexts node).normalized.chainID ∧
      entry.scrub.chainSHA256 = (contexts node).normalized.chainSHA256 ∧
      entry.scrub.topology = nodes ∧ entry.scrub.localIndex = indexOf nodes node ∧
      entry.scrub.peerIndex = indexOf nodes (trimSpace peer) := by
  obtain ⟨hsame, hvalid, hlocal, hid, hhash, htopology, hindex, hpeer⟩ := newEntry_ok hentry
  rw [hchain.same node h] at htopology hpeer
  rw [hchain.current node h] at hlocal
  rw [hchain.position_eq h] at hindex
  have hnames : nodes.map scrub = nodes :=
    (map_congr_left fun name hname => scrub_of_valid (hlegible.names name hname)).trans
      (map_id _)
  have hid' : validUTF8 entry.chainID = true := hid ▸ hlegible.chainID node h
  have hhash' : validUTF8 entry.chainSHA256 = true := by
    have hhex := (normalized_of_validate (hchain.valid node h)).2.2.1
    rw [hhash]
    exact validUTF8_of_lowerHex (all_eq_true.mp (Bool.and_eq_true_iff.mp hhex).2)
  have hstands := standsAt_of_validateEntry hvalid
  rw [htopology, standsAt_iff (hchain.nodup h)] at hstands
  have hversion : entry.version = registryVersion := by
    simp only [validateEntry, checks_ok] at hvalid
    exact hvalid.1.1.1.1.1.1.1.1.1.1
  -- Of what is read back only the binding and the socket may differ from what was written.
  have hscrub : entry.scrub =
      { entry with binding := scrub entry.binding, socket := scrub entry.socket } := by
    rw [Entry.scrub, hversion, hlocal, htopology, hnames, scrub_of_valid hid',
      scrub_of_valid hhash', scrub_of_valid (hlegible.names node h),
      scrub_of_valid (hlegible.names _ hstands.1), registryVersion, scrub_text]
  have hbinding : trimSpace entry.binding = entry.binding := congrArg Entry.binding hsame
  have hsocket : trimSpace entry.socket = entry.socket := congrArg Entry.socket hsame
  rw [hscrub]
  refine ⟨?_, ?_, hlocal, hid, hhash, htopology, hindex, hpeer⟩
  · change ({ normalizeEntry entry with
      binding := trimSpace (scrub entry.binding)
      socket := trimSpace (scrub entry.socket) } : Entry) = _
    rw [hsame, trimSpace_scrub, trimSpace_scrub, hbinding, hsocket]
  · simp only [validateEntry, checks_ok, ne_eq, scrub_eq_nil] at hvalid ⊢
    exact hvalid

omit htarget in
lemma Linked.resolveAdjacent {node peer previous ref name : Text} {index : ℕ}
    {disk : Disk} (hnode : node ∈ nodes) (hlinked : Linked site (contexts node) peer disk)
    (hpeer : peer ∈ nodes) (hname : resolveNode (contexts node) ref = .ok (name, index))
    (hne : (index : ℤ) ≠ position (contexts node))
    (htowards : indexOf nodes peer = towards (indexOf nodes node) index) :
    ∃ candidate, (site.router (contexts node) previous).resolveAdjacent (contexts node) disk ref =
      .ok candidate := by
  obtain ⟨registry, entry, binding, socket, pid, startedAt, hfile, hversion, hentry, hmem,
    hother⟩ :=
    hlinked.registered
  obtain ⟨file, leases, hleases, hread⟩ := hlinked.leases
  obtain ⟨hsame, hvalid, hlocal, hid, hhash, htopology, hindex, hpeerIndex⟩ :=
    hlegible.scrub_newEntry hchain hnode hentry
  obtain ⟨entries, hentries, hin⟩ :=
    mem_storeSnapshot_of_mem hfile hversion hmem (hsame.symm ▸ hvalid)
  rw [hsame] at hin
  refine exists_resolveAdjacent (hchain.valid node hnode) hname hne hentries
    (exists_leaseSnapshot hleases hread) hin ?_
  rw [hchain.trimmed hpeer] at hpeerIndex
  simp only [leadsTo, hchain.same node hnode, hchain.current node hnode, hchain.position_eq hnode,
    hlocal, hid, hhash, htopology, hindex, hpeerIndex, htowards, checks_ok, and_true]
  exact hother

lemma exists_journey_zero {sites : ℕ → Text → Site} {origin peer ref : Text} {index : ℕ}
    (hservice : routableService service = true) (horigin : origin ∈ nodes)
    (href : resolveNode (contexts origin) ref = .ok (target, index)) (hne : origin ≠ target)
    (hlive : AllLive nodes contexts sites) :
    ∃ visit, journey contexts service sites origin peer ref 0 = .ok visit ∧
      visit.previous = origin := by
  have hindex := ((hchain.resolveNode_iff horigin).mp href).2.2
  have htarget' := hlegible.resolveNode hchain htarget horigin hindex
  obtain ⟨next, hnext, htowards⟩ := hchain.exists_towards horigin htarget hne
  obtain ⟨j, hj, hlt⟩ := exists_indexOf hnext
  have hne' : (index : ℤ) ≠ position (contexts origin) := by
    rw [hchain.position_eq horigin, ← hindex]
    exact fun heq => hne (indexOf_inj (hchain.nodup horigin) htarget horigin heq).symm
  have hadjacent : (indexOf nodes origin - indexOf nodes next).natAbs = 1 := by
    rw [htowards, towards]
    split <;> omega
  rw [hindex] at htowards
  have hsite := hlive 0 origin horigin next hnext hadjacent
  obtain ⟨sent, hsent⟩ : ∃ sent, ((sites 0 origin).router (contexts origin) peer).openLocal
      (sites 0 origin).surroundings ref service = .ok sent := by
    refine exists_openLocal hservice (hchain.valid origin horigin) href hne' ?_
      (hsite.planned.resolveAdjacent hchain hlegible horigin hnext htarget' hne' htowards)
      ((hsite.disk 0).resolveAdjacent hchain hlegible horigin hnext htarget' hne' htowards)
      (hsite.dial 0)
    change 0 ≤ towards (position (contexts origin)) index ∧
      towards (position (contexts origin)) index < (contexts origin).normalized.nodes.length
    rw [hchain.position_eq horigin, hchain.same origin horigin, ← htowards]
    omega
  refine ⟨⟨origin, sent.peer, received sent.target⟩, ?_, rfl⟩
  simp only [journey, hsent]
  rfl

lemma Heading.exists_forward {sites : ℕ → Text → Site}
    (h : Heading nodes target visit) (hservice : routableService service = true)
    (hne : visit.node ≠ target) (hlive : AllLive nodes contexts sites) (hops : ℕ) :
    ∃ onward, SessionRoute.forward contexts service (sites hops visit.node) visit = .ok onward := by
  obtain ⟨index, hindex, -⟩ := exists_indexOf htarget
  have href := hlegible.resolveNode hchain htarget h.node hindex
  obtain ⟨next, hnext, htowards⟩ := hchain.exists_towards h.node htarget hne
  obtain ⟨i, hi, -⟩ := exists_indexOf h.previous
  have hne' : (index : ℤ) ≠ position (contexts visit.node) := by
    rw [hchain.position_eq h.node, ← hindex]
    exact fun heq => hne (indexOf_inj (hchain.nodup h.node) htarget h.node heq).symm
  have hadjacent : (indexOf nodes visit.node - indexOf nodes next).natAbs = 1 := by
    rw [htowards, towards]
    split <;> omega
  have hcloser := h.closer
  rw [hindex] at htowards hcloser
  have hsite := hlive hops visit.node h.node next hnext hadjacent
  obtain ⟨sent, hsent⟩ : ∃ sent, ((sites hops visit.node).router (contexts visit.node)
      visit.previous).openForward (sites hops visit.node).surroundings visit.nodeRef service =
        .ok sent := by
    rw [h.nodeRef]
    refine exists_openForward hservice href hne' ?_ ?_
      ((hsite.disk 0).resolveAdjacent hchain hlegible h.node hnext href hne' htowards)
      (hsite.dial 0)
    · change 0 ≤ indexOf (contexts visit.node).normalized.nodes (trimSpace visit.previous)
      rw [hchain.same _ h.node, hchain.trimmed h.previous, hi]
      omega
    · change (index - position (contexts visit.node)) * (indexOf
        (contexts visit.node).normalized.nodes (trimSpace visit.previous) -
          position (contexts visit.node)) ≤ 0
      rw [hchain.same _ h.node, hchain.trimmed h.previous, hchain.position_eq h.node]
      -- The node it came from is one off, on the side away from the target.
      obtain ⟨hone, hless⟩ := hcloser
      rcases (by omega : indexOf nodes visit.previous - indexOf nodes visit.node = 1 ∨
        indexOf nodes visit.previous - indexOf nodes visit.node = -1) with hstep | hstep
      · rw [hstep]
        omega
      · rw [hstep]
        omega
  refine ⟨⟨visit.node, sent.peer, received sent.target⟩, ?_⟩
  simp only [SessionRoute.forward, hsent]
  rfl

lemma exists_journey {sites : ℕ → Text → Site} {origin peer ref : Text} {index : ℕ}
    (hservice : routableService service = true) (horigin : origin ∈ nodes)
    (href : resolveNode (contexts origin) ref = .ok (target, index)) (hne : origin ≠ target)
    (hlive : AllLive nodes contexts sites) {hops : ℕ}
    (hhops : hops < (indexOf nodes origin - indexOf nodes target).natAbs) :
    ∃ visit, journey contexts service sites origin peer ref hops = .ok visit ∧
      (indexOf nodes visit.node - indexOf nodes target).natAbs + hops + 1 =
        (indexOf nodes origin - indexOf nodes target).natAbs := by
  induction hops with
  | zero =>
    obtain ⟨visit, hvisit, hprevious⟩ :=
      exists_journey_zero hchain hlegible htarget hservice horigin href hne hlive
    have hcloser := (heading_of_journey hchain hlegible htarget horigin href hvisit).closer
    rw [hprevious] at hcloser
    unfold Closer at hcloser
    exact ⟨visit, hvisit, by omega⟩
  | succ hops ih =>
    obtain ⟨visit, hvisit, hdistance⟩ := ih (by omega)
    have hheading := heading_of_journey hchain hlegible htarget horigin href hvisit
    have hnode : visit.node ≠ target := by
      intro heq
      rw [heq] at hdistance
      omega
    obtain ⟨onward, honward⟩ :=
      hheading.exists_forward hchain hlegible htarget hservice hnode hlive (hops + 1)
    obtain ⟨honwards, hprevious⟩ := hheading.forward hchain hlegible htarget honward
    have hcloser := honwards.closer
    rw [hprevious] at hcloser
    unfold Closer at hcloser
    refine ⟨onward, ?_, by omega⟩
    simp only [journey, hvisit, ok_bind]
    exact honward

end

/-! ## A target that is not legible

With a session between any two neighbours, each registered and none of them current, a target that
is not legible is not reached, or is read as another on the way.
-/

omit hchain [SHA256] in
def fullEntry (ctx : NodeContext) (peer : Text) : Entry :=
  { version := registryVersion, binding := "session", socket := "socket"
    localNode := ctx.normalized.currentNode, peerNode := peer, chainID := ctx.normalized.chainID
    chainSHA256 := ctx.normalized.chainSHA256, topology := ctx.normalized.nodes
    localIndex := position ctx, peerIndex := indexOf ctx.normalized.nodes peer, pid := 1
    startedAt := second }

def fullDisk (ctx : NodeContext) : Disk :=
  ⟨.ok (some ⟨registryVersion, ctx.normalized.nodes.map fun peer => (fullEntry ctx peer).scrub⟩),
    .ok none, zeroTime⟩

def fullSite (ctx : NodeContext) : Site :=
  ⟨false, [], false, ⟨fullDisk ctx, fun _ => fullDisk ctx, fun _ _ => .connected⟩⟩

omit [SHA256] in
lemma Chain.newEntry_eq {node peer : Text} (hnode : node ∈ nodes) (hpeer : peer ∈ nodes)
    (hadjacent : (indexOf nodes node - indexOf nodes peer).natAbs = 1) :
    newEntry (contexts node) "session" "socket" peer 1 second =
      .ok (fullEntry (contexts node) peer) := by
  obtain ⟨-, hvalid, hhex, hid⟩ := normalized_of_validate (hchain.valid node hnode)
  have hnonblank : ∀ name ∈ nodes, name ≠ [] := fun name hname =>
    (mem_nodes ((hchain.same node hnode).symm ▸ hname)).2
  have hnames : nodes.map trimSpace = nodes :=
    (List.map_congr_left fun name hname => hchain.trimmed hname).trans (List.map_id _)
  have hlower : toLower (trimSpace (contexts node).normalized.chainSHA256) =
      (contexts node).normalized.chainSHA256 := by
    simp [normalized]
  have htrimmed : trimSpace (contexts node).normalized.chainID =
      (contexts node).normalized.chainID := trimSpace_trimSpace _
  have hsession : trimSpace "session" = "session" := by decide
  have hsocket : trimSpace "socket" = "socket" := by decide
  have hentry : normalizeEntry (fullEntry (contexts node) peer) =
      fullEntry (contexts node) peer := by
    simp only [normalizeEntry, fullEntry, hchain.same node hnode, hchain.current node hnode, hnames,
      hlower, htrimmed, hchain.trimmed hnode, hchain.trimmed hpeer, hsession, hsocket]
    rfl
  have hchecked : validateEntry (fullEntry (contexts node) peer) = .ok () := by
    obtain ⟨i, hi, hilt⟩ := exists_indexOf hnode
    obtain ⟨j, hj, hjlt⟩ := exists_indexOf hpeer
    have hlocal := (standsAt_iff (hchain.nodup hnode)).mpr ⟨hnode, rfl⟩
    have hstands := (standsAt_iff (hchain.nodup hnode)).mpr ⟨hpeer, rfl⟩
    have hlen : len (contexts node).normalized.chainSHA256 = 64 :=
      eq_of_beq (Bool.and_eq_true_iff.mp hhex).1
    simp only [validateEntry, fullEntry, checks_ok, hchain.same node hnode,
      hchain.current node hnode, hchain.position_eq hnode, hlen, hlocal, hstands, hadjacent,
      true_and, and_true]
    refine ⟨⟨⟨⟨⟨⟨by decide, hnonblank node hnode⟩, hnonblank peer hpeer⟩, hid⟩,
      ?_⟩, by decide⟩, by decide⟩
    omega
  unfold newEntry
  simp only [hvalid, hchain.trimmed hpeer, hsession, hsocket]
  change (validateEntry (normalizeEntry (fullEntry (contexts node) peer)) >>= fun _ =>
    pure (normalizeEntry (fullEntry (contexts node) peer))) = _
  rw [hentry, hchecked]
  rfl

omit [SHA256] in
lemma Chain.allLive : AllLive nodes contexts fun _ node => fullSite (contexts node) := by
  intro hops node hnode neighbour hneighbour hadjacent
  have hlinked : Linked (fullSite (contexts node)) (contexts node) neighbour
      (fullDisk (contexts node)) := by
    refine ⟨⟨_, _, _, _, _, _, rfl, rfl, hchain.newEntry_eq hnode hneighbour hadjacent, ?_, ?_⟩,
      none, _, rfl, rfl⟩
    · rw [hchain.same node hnode]
      exact mem_map_of_mem hneighbour
    · change scrub "session" ≠ trimSpace []
      decide
  exact ⟨hlinked, fun _ => hlinked, fun _ _ => rfl⟩

variable {service : ServiceID}

omit hchain in
lemma exists_journey_zero_of_ok {sites : ℕ → Text → Site} {origin peer ref : Text} {hops : ℕ}
    (h : journey contexts service sites origin peer ref hops = .ok visit) :
    ∃ first, journey contexts service sites origin peer ref 0 = .ok first := by
  induction hops generalizing visit with
  | zero => exact ⟨visit, h⟩
  | succ hops ih =>
    rw [journey, bind_eq_ok] at h
    obtain ⟨before, hbefore, -⟩ := h
    exact ih hbefore

omit hchain in
lemma Routed.nodeRef {origin ref target peer : Text} {sites : ℕ → Text → Site} {index hops : ℕ}
    (h : Routed nodes contexts service origin ref target)
    (href : resolveNode (contexts origin) ref = .ok (target, index))
    (hvisit : journey contexts service sites origin peer ref hops = .ok visit) :
    visit.nodeRef = received target := by
  cases hops with
  | zero =>
    simp only [journey, checks_ok] at hvisit
    obtain ⟨sent, hsent, rfl⟩ := hvisit
    obtain ⟨i, hname, -⟩ := openLocal_ok hsent
    obtain ⟨hsame, -⟩ := Prod.mk.inj (ok.inj (href.symm.trans hname))
    rw [hsame]
  | succ hops =>
    rw [journey, bind_eq_ok] at hvisit
    obtain ⟨before, hbefore, hvisit⟩ := hvisit
    simp only [forward, checks_ok] at hvisit
    obtain ⟨sent, hsent, rfl⟩ := hvisit
    obtain ⟨i, hname, -⟩ := openForward_ok hsent
    obtain ⟨-, j, hread⟩ := h.read sites peer hops before hbefore
    obtain ⟨hsame, -⟩ := Prod.mk.inj (ok.inj (hread.symm.trans hname))
    rw [hsame]

omit hchain in
lemma valid_of_found {ctx : NodeContext} {peer target : Text} {candidate : Candidate}
    (h : ((fullSite ctx).router ctx peer).resolveAdjacent ctx (fullDisk ctx) target =
      .ok candidate) : (∀ node ∈ ctx.normalized.nodes, validUTF8 node = true) ∧
      validUTF8 ctx.normalized.chainID = true := by
  simp only [resolveAdjacent, Site.router, fullSite, Bool.false_eq_true, if_false] at h
  cases hfound : resolveIn id (fun a b => b.startedAt < a.startedAt) (storeSnapshot (fullDisk ctx))
    [] ctx target with
  | error e => rw [hfound] at h; cases h
  | ok found =>
    obtain ⟨-, -, entries, hentries, hmem, hleads⟩ := resolveIn_ok hfound
    obtain ⟨-, registry, hfile, raw, hraw, hsame⟩ := mem_storeSnapshot hentries hmem
    cases hfile
    obtain ⟨neighbour, -, rfl⟩ := mem_map.mp hraw
    simp only [leadsTo, id_eq, checks_ok] at hleads
    rw [← hleads.1.1.2, ← hleads.1.1.1.1.2, ← hsame]
    refine ⟨fun node hnode => ?_, validUTF8_trimSpace (validUTF8_scrub _)⟩
    obtain ⟨scrubbed, hscrubbed, rfl⟩ := mem_map.mp hnode
    obtain ⟨name, -, rfl⟩ := mem_map.mp hscrubbed
    exact validUTF8_trimSpace (validUTF8_scrub _)

lemma Routed.legible {origin ref target : Text} {index : ℕ}
    (h : Routed nodes contexts service origin ref target) (horigin : origin ∈ nodes)
    (href : resolveNode (contexts origin) ref = .ok (target, index)) (hne : origin ≠ target) :
    Legible nodes contexts target := by
  have htarget := ((hchain.resolveNode_iff horigin).mp href).2.1
  obtain ⟨hops, visit, hvisit, hnode⟩ := h.arrives _ [] hne hchain.allLive
  obtain ⟨first, hfirst⟩ := exists_journey_zero_of_ok hvisit
  simp only [journey, checks_ok] at hfirst
  obtain ⟨sent, hsent, -⟩ := hfirst
  obtain ⟨i, hname, -, hmux | ⟨attempt, candidate, -, hfound⟩⟩ := openLocal_ok hsent
  · cases hmux.1
  obtain ⟨hsame, -⟩ := Prod.mk.inj (ok.inj (href.symm.trans hname))
  rw [← hsame] at hfound
  obtain ⟨hnames, hid⟩ := valid_of_found hfound
  rw [hchain.same origin horigin] at hnames
  refine ⟨hnames, fun node hnode => hchain.chainID origin horigin node hnode ▸ hid, ?_⟩
  -- What the node that is reached reads is the name of the target.
  have hreceived : received target = target := by
    rw [received, scrub_of_valid (hnames target htarget), hchain.trimmed htarget]
  obtain ⟨-, j, hread⟩ := h.read _ _ _ _ hvisit
  rw [h.nodeRef href hvisit, hnode, hreceived, hchain.resolveNode_iff htarget,
    hchain.trimmed htarget] at hread
  obtain ⟨hread, -⟩ := hread
  have hcurrent :
      (contexts target).normalized.currentNode ∈ (contexts target).normalized.nodes := by
    rwa [hchain.current target htarget, hchain.same target htarget]
  have hnodup := nodup_nodes (contexts target)
  have hneighbour : ¬(nodeAliases.lookup (toLower target) = some .previous ∨
      nodeAliases.lookup (toLower target) = some .next) := fun hword =>
    nameIn_ne_currentNode hnodup hcurrent hword (by rw [hread, hchain.current target htarget])
  intro word hword
  cases word with
  | self =>
    obtain ⟨name, k, hresolved, haway, -⟩ := resolveAdjacent_ok hfound
    change resolveNode (contexts origin) target = .ok (name, k) at hresolved
    change (k : ℤ) ≠ position (contexts origin) at haway
    rw [hchain.resolveNode_iff horigin, hchain.trimmed htarget, nameIn, hword] at hresolved
    obtain ⟨hself, -, hk⟩ := hresolved
    cases hself
    rw [hchain.current origin horigin] at hk
    exact absurd (by rw [hchain.position_eq horigin, hk]) haway
  | previous => exact absurd (.inl hword) hneighbour
  | next => exact absurd (.inr hword) hneighbour
  | endpoint =>
    rw [nameIn, hword, hchain.same target htarget] at hread
    exact ⟨rfl, elim_eq_ok.mp hread⟩

end

/-- **Where a request for a node of a chain ends.** -/
theorem request_routed {nodes : List Text} {contexts : Text → NodeContext}
    (hchain : Chain nodes contexts) {service : ServiceID}
    (hservice : routableService service = true) {origin : Text} (horigin : origin ∈ nodes)
    {ref target : Text} {index : ℕ}
    (href : resolveNode (contexts origin) ref = .ok (target, index)) :
    Routed nodes contexts service origin ref target ↔
      origin = target ∨ Legible nodes contexts target := by
  obtain ⟨-, htarget, hindex⟩ := (hchain.resolveNode_iff horigin).mp href
  constructor
  · intro h
    by_cases hne : origin = target
    · exact .inl hne
    · exact .inr (h.legible hchain horigin href hne)
  · rintro (rfl | hlegible)
    · -- A request for the node it starts at goes nowhere.
      have hnone : ∀ sites peer hops visit,
          journey contexts service sites origin peer ref hops ≠ .ok visit := by
        intro sites peer hops visit hvisit
        obtain ⟨first, hfirst⟩ := exists_journey_zero_of_ok hvisit
        simp only [journey, checks_ok] at hfirst
        obtain ⟨sent, hsent, -⟩ := hfirst
        obtain ⟨i, hname, haway, -⟩ := Router.openLocal_ok hsent
        change resolveNode (contexts origin) ref = _ at hname
        change (i : ℤ) ≠ position (contexts origin) at haway
        rw [href] at hname
        obtain ⟨-, rfl⟩ := Prod.mk.inj (Except.ok.inj hname)
        rw [hchain.position_eq horigin, hindex] at haway
        exact haway rfl
      exact ⟨fun _ _ _ _ hvisit => absurd hvisit (hnone _ _ _ _),
        fun _ _ _ _ hvisit => absurd hvisit (hnone _ _ _ _),
        fun _ _ _ _ _ _ hvisit => absurd hvisit (hnone _ _ _ _),
        fun _ _ _ _ _ hvisit => absurd hvisit (hnone _ _ _ _), fun _ _ hne => absurd rfl hne⟩
    · have hheading : ∀ {sites peer hops visit},
          journey contexts service sites origin peer ref hops = .ok visit →
            Heading nodes target visit :=
        fun hvisit => heading_of_journey hchain hlegible htarget horigin href hvisit
      refine ⟨?_, fun _ _ _ _ hvisit => (hheading hvisit).closer, ?_, ?_, ?_⟩
      · intro sites peer hops visit hvisit
        have h := hheading hvisit
        rw [h.nodeRef]
        exact ⟨h.node, index, hlegible.resolveNode hchain htarget h.node hindex⟩
      · intro sites peer hops visit site onward hvisit honward hback
        have h := hheading hvisit
        obtain ⟨honwards, hprevious⟩ := h.forward hchain hlegible htarget honward
        have hfar := h.closer.2
        have hnear := honwards.closer.2
        rw [hprevious, hback] at hnear
        omega
      · intro sites peer hops visit site hvisit
        have h := hheading hvisit
        have hread := hlegible.resolveNode hchain htarget h.node hindex
        have hlocal := @Router.openForward_targetLocal_iff _ _ target
          (site.router (contexts visit.node) visit.previous) site.surroundings
          service index visit.nodeRef hservice (by rw [h.nodeRef]; exact hread) hread
        simp only [forward, bind_eq_error, pure_ne_error, and_false, exists_false, or_false]
        rw [hlocal]
        change (index : ℤ) = position (contexts visit.node) ↔ _
        rw [hchain.position_eq h.node, ← hindex]
        exact ⟨fun heq => (indexOf_inj (hchain.nodup h.node) htarget h.node heq).symm,
          fun heq => by rw [heq]⟩
      · intro sites peer hne hlive
        have hdistance : 0 < (indexOf nodes origin - indexOf nodes target).natAbs := by
          have hdiff : indexOf nodes origin ≠ indexOf nodes target := fun heq =>
            hne (indexOf_inj (hchain.nodup horigin) horigin htarget heq)
          omega
        obtain ⟨visit, hvisit, harrived⟩ := @exists_journey _ _ _ _ hchain _ hlegible htarget
          service sites origin peer ref index hservice horigin href hne hlive
          ((indexOf nodes origin - indexOf nodes target).natAbs - 1) (by omega)
        have h := hheading hvisit
        exact ⟨_, visit, hvisit, indexOf_inj (hchain.nodup h.node) h.node htarget (by omega)⟩

end

section Sample

attribute [local instance] asciiCase sha256

/-- A node that has its current session, and nothing registered. -/
def currentSite : Site :=
  ⟨false, [], true, ⟨⟨.ok none, .ok none, 0⟩, fun _ => ⟨.ok none, .ok none, 0⟩, fun _ _ => .failed⟩⟩

lemma chain_minuteContext {nodes : List Text}
    (h : ∀ node ∈ nodes, (minuteContext nodes node).validate = .ok () ∧
      (minuteContext nodes node).normalized.nodes = nodes ∧
      (minuteContext nodes node).normalized.currentNode = node) :
    Chain nodes (minuteContext nodes) :=
  ⟨fun node hnode => (h node hnode).1, fun node hnode => (h node hnode).2.1,
    fun node hnode => (h node hnode).2.2, fun _ _ _ _ => rfl⟩

/-- On a chain of three nodes with plain names a request of the first for the last is routed. -/
theorem request_routed_last :
    Routed ["a", "b", "c"] (minuteContext ["a", "b", "c"]) serviceFS
      "a" "last" "c" := by
  have hchain : Chain ["a", "b", "c"]
      (minuteContext ["a", "b", "c"]) := chain_minuteContext (by decide +kernel)
  have href : resolveNode (minuteContext ["a", "b", "c"] "a") "last" =
      .ok ("c", 2) := by
    decide +kernel
  refine (request_routed hchain rfl (by decide) href).mpr (.inr ⟨by decide, by decide, ?_⟩)
  have hname : nodeAliases.lookup (toLower "c") = none := by decide
  intro word hword
  rw [hname] at hword
  cases hword

/-- **A request that ends at another node**: the last of three nodes is called `self`, and the
second, to which a request for it is sent, takes that for itself. A name with a stray byte is not
known to the node it is sent to. -/
theorem request_taken_on_the_way :
    let nodes := [text "a", text "b", text "self"]
    let contexts := minuteContext nodes
    let stray := [text "a", [.raw 0xff]]
    Chain nodes contexts ∧
      resolveNode (contexts (text "a")) (text "last") = .ok (text "self", 2) ∧
      journey contexts serviceFS (fun _ _ => currentSite) (text "a") (text "b") (text "last") 0 =
        .ok ⟨text "a", text "b", text "self"⟩ ∧
      forward contexts serviceFS currentSite ⟨text "a", text "b", text "self"⟩ =
        .error .targetLocal ∧
      ¬Routed nodes contexts serviceFS (text "a") (text "last") (text "self") ∧
      Chain stray (minuteContext stray) ∧
      journey (minuteContext stray) serviceFS (fun _ _ => currentSite) (text "a") [.raw 0xff]
          (text "last") 0 = .ok ⟨text "a", [.raw 0xff], [.char '\uFFFD']⟩ ∧
      resolveNode (minuteContext stray [.raw 0xff]) [.char '\uFFFD'] =
        .error (.targetUnknown (some [.char '\uFFFD'])) := by
  obtain ⟨hnodes, href, hjourney, hforward, hstray, hsent, hunknown⟩ :
      (∀ node ∈ [text "a", text "b", text "self"],
        (minuteContext [text "a", text "b", text "self"] node).validate = .ok () ∧
        (minuteContext [text "a", text "b", text "self"] node).normalized.nodes =
          [text "a", text "b", text "self"] ∧
        (minuteContext [text "a", text "b", text "self"] node).normalized.currentNode = node) ∧
      resolveNode (minuteContext [text "a", text "b", text "self"] (text "a")) (text "last") =
        .ok (text "self", 2) ∧
      journey (minuteContext [text "a", text "b", text "self"]) serviceFS
        (fun _ _ => currentSite) (text "a") (text "b") (text "last") 0 =
          .ok ⟨text "a", text "b", text "self"⟩ ∧
      forward (minuteContext [text "a", text "b", text "self"]) serviceFS currentSite
        ⟨text "a", text "b", text "self"⟩ = .error .targetLocal ∧
      (∀ node ∈ [text "a", [.raw 0xff]],
        (minuteContext [text "a", [.raw 0xff]] node).validate = .ok () ∧
        (minuteContext [text "a", [.raw 0xff]] node).normalized.nodes = [text "a", [.raw 0xff]] ∧
        (minuteContext [text "a", [.raw 0xff]] node).normalized.currentNode = node) ∧
      journey (minuteContext [text "a", [.raw 0xff]]) serviceFS (fun _ _ => currentSite) (text "a")
        [.raw 0xff] (text "last") 0 = .ok ⟨text "a", [.raw 0xff], [.char '\uFFFD']⟩ ∧
      resolveNode (minuteContext [text "a", [.raw 0xff]] [.raw 0xff]) [.char '\uFFFD'] =
        .error (.targetUnknown (some [.char '\uFFFD'])) := by
    decide +kernel
  refine ⟨chain_minuteContext hnodes, href, hjourney, hforward, fun hrouted => ?_,
    chain_minuteContext hstray, hsent, hunknown⟩
  have hlocal := (hrouted.ends _ _ _ _ currentSite hjourney).mp hforward
  exact absurd hlocal (by decide)

end Sample

end WeaverSSH.SessionRoute
