import WeaverSSH.Framework.JsonRoundTrip
import WeaverSSH.HopProof.Spec

/-!
# Hop records in JSON

The digest that links two records is that of a record's JSON text, which writes every stray byte the
same. Records with the same text are the same when scrubbed (`scrub_eq_of_marshal_eq`), and a chain
that is encoded is decoded to the scrubbed one (`decode_encode`).
-/

namespace WeaverSSH.HopProof

open AuthProof Json Option

def Hop.scrub (h : Hop) : Hop :=
  { h with
    version := WeaverSSH.scrub h.version
    chainID := WeaverSSH.scrub h.chainID
    chainSHA256 := WeaverSSH.scrub h.chainSHA256
    rootNode := WeaverSSH.scrub h.rootNode
    fromNode := WeaverSSH.scrub h.fromNode
    toNode := WeaverSSH.scrub h.toNode
    parentHopSHA256 := WeaverSSH.scrub h.parentHopSHA256
    parentSessionBinding := WeaverSSH.scrub h.parentSessionBinding
    nonce := WeaverSSH.scrub h.nonce }

def SignedHop.scrub (s : SignedHop) : SignedHop :=
  ⟨WeaverSSH.scrub s.principal, s.hop.scrub, WeaverSSH.scrub s.signature⟩

lemma normalizeHop_scrub [Unicode] {h : Hop} (hnormal : normalizeHop h = h)
    (hchain : validUTF8 h.chainSHA256 = true) (hparent : validUTF8 h.parentHopSHA256 = true) :
    normalizeHop h.scrub = h.scrub := by
  have htrim : ∀ {t : Text}, trimSpace t = t →
      trimSpace (WeaverSSH.scrub t) = WeaverSSH.scrub t := fun ht => by rw [trimSpace_scrub, ht]
  have hversion : orElse (WeaverSSH.scrub h.version) hopVersion = WeaverSSH.scrub h.version := by
    refine orElse_of_ne fun hnil => ?_
    have hfield : orElse h.version hopVersion = h.version := congrArg Hop.version hnormal
    rw [scrub_eq_nil.mp hnil] at hfield
    cases hfield
  simp only [normalizeHop, Hop.scrub, Hop.mk.injEq, and_true, true_and]
  refine ⟨hversion, htrim (congrArg Hop.chainID hnormal), ?_, htrim (congrArg Hop.rootNode hnormal),
    htrim (congrArg Hop.fromNode hnormal), htrim (congrArg Hop.toNode hnormal), ?_,
    htrim (congrArg Hop.parentSessionBinding hnormal), htrim (congrArg Hop.nonce hnormal)⟩
  · rw [scrub_of_valid hchain]
    exact congrArg Hop.chainSHA256 hnormal
  · rw [scrub_of_valid hparent]
    exact congrArg Hop.parentHopSHA256 hnormal

lemma Hop.scrub_json (h : Hop) : h.json.scrub = h.scrub.json := by
  simp [Hop.json, Hop.scrub, Json.scrub, Json.scrubMembers, Json.scrubMembers_append,
    scrubMembers_optional]

lemma SignedHop.scrub_json (s : SignedHop) : s.json.scrub = s.scrub.json := by
  simp [SignedHop.json, SignedHop.scrub, Json.scrub, Json.scrubMembers, Hop.scrub_json]

lemma Hop.fits (d : ℕ) (h : Hop) : Json.Fits (d + 1) h.json :=
  .obj (by simp [or_imp, forall_and, Json.optional])

lemma SignedHop.fits (d : ℕ) (s : SignedHop) : Json.Fits (d + 2) s.json :=
  .obj (by simp [s.hop.fits d])

lemma Hop.json_injective : Function.Injective Hop.json := by
  have hname : text "parent_session_binding" ≠ text "parent_hop_sha256" := by decide
  have hname' : text "nonce" ≠ text "parent_hop_sha256" := by decide
  have hname'' : text "nonce" ≠ text "parent_session_binding" := by decide
  intro g h heq
  have hbinding : ∀ (v : Text) (j : Json) (rest : List (Text × Json)),
      ∀ m ∈ (optional "parent_session_binding" v ++ (text "nonce", j) :: rest).head?,
        m.1 ≠ text "parent_hop_sha256" := by
    intro v j rest m hm
    unfold Json.optional at hm
    split_ifs at hm
    · obtain rfl := some.inj hm
      exact hname'
    · obtain rfl := some.inj hm
      exact hname
  have hnonce : ∀ (j : Json) (rest : List (Text × Json)),
      ∀ m ∈ ((text "nonce", j) :: rest).head?, m.1 ≠ text "parent_session_binding" := by
    intro j rest m hm
    obtain rfl := some.inj hm
    exact hname''
  obtain ⟨hhead, htail⟩ := List.append_inj (obj.inj heq) rfl
  obtain ⟨hparent, htail⟩ := optional_append_inj htail (hbinding _ _ _) (hbinding _ _ _)
  obtain ⟨hsession, htail⟩ := optional_append_inj htail (hnonce _ _) (hnonce _ _)
  simp only [List.cons.injEq, Prod.mk.injEq, str.injEq, int_inj, true_and, and_true]
    at hhead htail
  obtain ⟨h1, h2, h3, h4, h5, h6, h7⟩ := hhead
  obtain ⟨h8, h9, h10⟩ := htail
  cases g
  cases h
  simp_all

lemma SignedHop.json_injective : Function.Injective SignedHop.json := by
  intro s t heq
  have hmembers := Json.obj.inj heq
  simp only [List.cons.injEq, Prod.mk.injEq, Json.str.injEq, true_and, and_true] at hmembers
  obtain ⟨hprincipal, hhop, hsignature⟩ := hmembers
  cases s
  cases t
  simp_all [Hop.json_injective.eq_iff]

lemma SignedHop.scrub_eq_of_marshal_eq {s t : SignedHop}
    (h : Json.marshal s.json = Json.marshal t.json) : s.scrub = t.scrub := by
  have hscrub := Json.scrub_eq_of_marshal_eq (s.fits 9998) (t.fits 9998) h
  rw [SignedHop.scrub_json, SignedHop.scrub_json] at hscrub
  exact SignedHop.json_injective hscrub

/-! ## Reading a chain back -/

/-- The numbers of a hop are those of its fields' types. -/
def Hop.Sized (h : Hop) : Prop :=
  IsInt64 h.hopIndex ∧ IsInt64 h.issuedAtUnix ∧ IsInt64 h.expiresAtUnix

lemma Hop.decode_json {h : Hop} (hsized : h.Sized) :
    Json.decode Hop.member {} h.json = some h := by
  obtain ⟨hindex, hissued, hexpires⟩ := hsized
  refine Json.Fills.append (.cons rfl <| .cons rfl <| .cons rfl <| .cons rfl <| .cons rfl <|
    .cons rfl <|
    .field rfl (Json.readInt64_int 0 hindex) (.nil rfl)) ?_
  refine Json.Fills.append (.optional (fun _ => rfl) rfl) ?_
  refine Json.Fills.append (.optional (fun _ => rfl) rfl) ?_
  exact .cons rfl <| .field rfl (readInt64_int 0 hissued) <|
    .field rfl (readInt64_int 0 hexpires) (.nil rfl)

lemma SignedHop.decode_json {s : SignedHop} (hsized : s.hop.Sized) :
    Json.decode SignedHop.member {} s.json = some s := by
  exact Json.Fills.cons rfl <| .field rfl (Hop.decode_json hsized) <| .cons rfl (.nil rfl)

lemma Chain.decode_json {c : Chain} (hsized : ∀ s ∈ c.hops, s.hop.Sized) :
    Json.decode Chain.member {} c.json = some c := by
  exact Json.Fills.cons rfl <|
    .field rfl (Json.readList_map fun s hs => SignedHop.decode_json (hsized s hs)) (.nil rfl)

def Chain.scrub (c : Chain) : Chain := ⟨WeaverSSH.scrub c.version, c.hops.map SignedHop.scrub⟩

lemma Chain.scrub_json (c : Chain) : c.json.scrub = c.scrub.json := by
  simp [Chain.json, Chain.scrub, Json.scrub, Json.scrubMembers, Json.scrubItems_eq_map,
    SignedHop.scrub_json]

lemma Chain.fits (d : ℕ) (c : Chain) : Json.Fits (d + 4) c.json := by
  have hhops : Json.Fits (d + 3) (.arr (c.hops.map SignedHop.json)) :=
    .arr (by simp [SignedHop.fits d])
  exact .obj (by simp [hhops])

lemma decode_encode {c : Chain} {t : Text} (hsized : ∀ s ∈ c.hops, s.hop.Sized)
    (h : encode c = .ok t) : decode t = .ok c.scrub := by
  simp only [encode, checks_ok] at h
  obtain ⟨⟨⟨hversion, hhops⟩, hmax⟩, hlen, rfl⟩ := h
  have hne : Base64.encode (Json.marshal c.json) ≠ [] := fun hnil => by
    have hbytes := Base64.encode_eq_nil hnil
    cases hbytes
  have hscrub : c.scrub.version = chainVersion ∧ c.scrub.hops ≠ [] ∧
      c.scrub.hops.length ≤ maxHops :=
    ⟨by rw [Chain.scrub, hversion]; exact scrub_text _, by simpa [Chain.scrub] using hhops,
      by simpa [Chain.scrub] using hmax⟩
  have hread : ((Base64.decode (Base64.encode (Json.marshal c.json))).bind fun payload =>
      Json.parse (ofBytes payload)).bind (Json.decode Chain.member {}) = some c.scrub := by
    rw [Base64.decode_encode, Option.bind_some, Json.parse_marshal (c.fits 9996), Option.bind_some,
      Chain.scrub_json]
    refine Chain.decode_json fun s hs => ?_
    obtain ⟨s', hs', rfl⟩ := List.mem_map.mp hs
    exact hsized s' hs'
  rw [decode, trimSpace_of_forall (Base64.isSpace_encode _)]
  simp only [checks_ok]
  refine ⟨⟨hne, hlen⟩, ?_⟩
  rw [hread]
  simp only [checks_ok]
  exact ⟨⟨⟨hscrub.1, hscrub.2.1⟩, hscrub.2.2⟩, trivial⟩

end WeaverSSH.HopProof
