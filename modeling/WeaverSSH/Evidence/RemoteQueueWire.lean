import WeaverSSH.Evidence.AnchorWire
import WeaverSSH.Evidence.RemoteQueue

/-!
# What a queue writes and reads

An item is copied by writing it in JSON and reading it again, and so are the items of the file.
Where it is UTF-8, what is read is the item, up to stray bytes of its last error (`clone_eq`); items
that are sound are loaded (`loadState_payload`).
-/

namespace WeaverSSH.Evidence

open List AgentRemoteDelivery Rune Json

/-! ## Items in JSON -/

/-- The texts of an item by which it is known are UTF-8. -/
structure AgentRemoteDelivery.Legible (d : AgentRemoteDelivery) : Prop where
  version : validUTF8 d.version = true
  head : d.head.Legible
  receipts : ∀ r ∈ d.receipts, r.Legible

/-- The numbers of an item are those of its fields' types. -/
structure AgentRemoteDelivery.Sized (d : AgentRemoteDelivery) : Prop where
  enqueuedAtUnix : IsInt64 d.enqueuedAtUnix
  attempts : IsInt64 d.attempts
  lastAttemptUnix : IsInt64 d.lastAttemptUnix
  nextAttemptUnix : IsInt64 d.nextAttemptUnix
  deliveredAtUnix : IsInt64 d.deliveredAtUnix

/-- An item with its last error scrubbed. -/
def AgentRemoteDelivery.scrub (d : AgentRemoteDelivery) : AgentRemoteDelivery :=
  { d with lastError := WeaverSSH.scrub d.lastError }

lemma AgentRemoteDelivery.fits (d : ℕ) (item : AgentRemoteDelivery) :
    Json.Fits (d + 4) item.json := by
  have hreceipts : Json.Fits (d + 3) (.arr (item.receipts.map AnchorReceipt.json)) :=
    .arr (by simp [AnchorReceipt.fits d])
  exact .obj (by simp [or_imp, forall_and, Json.optional, Json.optionalInt, item.head.fits (d + 2),
    hreceipts])

variable {d : AgentRemoteDelivery}

lemma AgentRemoteDelivery.scrub_json (h : d.Legible) : d.json.scrub = d.scrub.json := by
  have hreceipts : d.receipts.map (Json.scrub ∘ AnchorReceipt.json) =
      d.receipts.map AnchorReceipt.json :=
    map_congr_left fun r hr => AnchorReceipt.scrub_json (h.receipts r hr)
  simp [json, scrub, Json.scrub, Json.scrubMembers_append,
    scrubMembers, scrubMembers_optional, optionalInt, apply_ite scrubMembers,
    scrubItems_eq_map, hreceipts, Head.scrub_json h.head, scrub_of_valid h.version]
  rfl

lemma AgentRemoteDelivery.decode_json (h : d.Sized) : decode member {} d.json = some d := by
  refine Json.Fills.append (.cons rfl <| .field rfl (Head.decode_json _) (.nil rfl)) ?_
  refine Json.Fills.append (.omitted rfl (Json.readList_map fun r _ =>
    AnchorReceipt.decode_json r) rfl id) ?_
  refine Json.Fills.append (.field rfl (Json.readInt64_int 0 h.enqueuedAtUnix) <|
    .field rfl (readInt64_int 0 h.attempts) (.nil rfl)) ?_
  refine Json.Fills.append (.omitted rfl (readInt64_int 0 h.lastAttemptUnix) rfl id) ?_
  refine Json.Fills.append (.omitted rfl (readInt64_int 0 h.nextAttemptUnix) rfl id) ?_
  refine Json.Fills.append (.omitted rfl (readInt64_int 0 h.deliveredAtUnix) rfl id) ?_
  exact .optional (fun _ => rfl) rfl

/-- **A copy of an item** is the item, but for its last error. -/
lemma AgentRemoteDelivery.clone_eq (hlegible : d.Legible) (hsized : d.Sized) :
    d.clone = d.scrub := by
  have hscrub : d.scrub.Sized := ⟨hsized.1, hsized.2, hsized.3, hsized.4, hsized.5⟩
  rw [clone, parse_marshal (d.fits 9996), Option.bind_some,
    scrub_json hlegible, decode_json hscrub, Option.getD_some]

/-! ## Keys -/

lemma length_digits20 (n : UInt64) : (digits20 n).length = 20 := by
  have hlength : (decimal n.toNat).length ≤ 20 := by
    show ((Nat.toDigits 10 n.toNat).map char).length ≤ 20
    rw [length_map]
    exact Nat.toDigits_length 10 n.toNat 20 (by decide) (n.toNat_lt.trans (by decide))
  rw [digits20, length_append, length_replicate]
  omega

lemma digits20_injective : Function.Injective digits20 := by
  have hvalue (n : UInt64) :
      (digits20 n).foldl (fun n r => 10 * n + (hexValue r).getD 0) 0 = n.toNat := by
    have hzeros : ∀ k : ℕ, (replicate k (char '0')).foldl
        (fun n r => 10 * n + (hexValue r).getD 0) 0 = 0 := by
      intro k
      induction k with
      | zero => rfl
      | succ k ih => exact ih
    rw [digits20, foldl_append, hzeros]
    exact foldl_toDigits n.toNat
  intro m n h
  apply UInt64.toNat_inj.mp
  rw [← hvalue m, ← hvalue n, h]

section

variable [Unicode]

lemma colon_notMem {head : Head} {statement : AnchorStatement}
    (h : newAnchorStatement head = .ok statement) : char ':' ∉ head.statementSHA256 := by
  intro hmem
  simp only [newAnchorStatement, AnchorStatement.validate, checks_ok, isSHA256, hexDecodes,
    all_eq_true] at h
  have hhex := h.1.2.2.1
  rcases isSpace_or_mem_trimSpace hmem with hspace | hmem
  · exact absurd hspace (by decide)
  · have hlower := hhex _ (mem_map_of_mem hmem)
    have hcolon : (char ':').toLower = .char ':' :=
      congrArg char (Unicode.lower_ascii ':' (by decide))
    rw [hcolon] at hlower
    cases hlower

omit [Unicode] in
lemma append_colon_inj {s t a b : Text} (ha : char ':' ∉ a) (hb : char ':' ∉ b)
    (h : s ++ (text ":" ++ a) = t ++ (text ":" ++ b)) : s = t ∧ a = b := by
  -- The colon of one side is not further right than that of the other.
  have hright {l u v : Text} (hu : char ':' ∉ u)
      (hl : char ':' :: u = l ++ (char ':' :: v)) : l = [] ∧ u = v := by
    cases l with
    | nil => exact ⟨rfl, (cons.inj hl).2⟩
    | cons r l =>
      rw [(cons.inj hl).2] at hu
      exact absurd (mem_append_right l mem_cons_self) hu
  rcases append_eq_append_iff.mp h with ⟨l, rfl, hl⟩ | ⟨l, rfl, hl⟩
  · obtain ⟨rfl, rfl⟩ := hright ha hl
    exact ⟨(append_nil s).symm, rfl⟩
  · obtain ⟨rfl, rfl⟩ := hright hb hl
    exact ⟨append_nil t, rfl⟩

lemma remoteHeadKey_inj {head head' : Head} {statement statement' : AnchorStatement}
    (h : newAnchorStatement head = .ok statement) (h' : newAnchorStatement head' = .ok statement')
    (hkey : remoteHeadKey head = remoteHeadKey head') : head = head' := by
  obtain ⟨stream, sequence, digest⟩ := head
  obtain ⟨stream', sequence', digest'⟩ := head'
  simp only [remoteHeadKey] at hkey
  rw [← append_assoc (text ":"), ← append_assoc stream, ← append_assoc (text ":"),
    ← append_assoc stream'] at hkey
  obtain ⟨hnumbered, rfl⟩ := append_colon_inj (colon_notMem h) (colon_notMem h') hkey
  obtain ⟨hstream, hdigits⟩ := append_inj' hnumbered (by
    rw [length_append, length_append, length_digits20, length_digits20])
  rw [append_cancel_left_eq] at hdigits
  rw [hstream, digits20_injective hdigits]

/-! ## Loading -/

/-- An item that is loaded from a file. -/
structure AgentRemoteDelivery.Sound (d : AgentRemoteDelivery) : Prop where
  legible : d.Legible
  sized : d.Sized
  version : d.version = agentRemoteQueueVersion
  enqueued : 0 < d.enqueuedAtUnix
  head : ∃ statement, newAnchorStatement d.head = .ok statement
  receipts : ∀ r ∈ d.receipts, r.validateFor r.provider d.head = .ok ()
  delivered : d.delivered = true → d.receipts ≠ []

lemma AgentRemoteDelivery.Sound.scrub (h : d.Sound) : d.scrub.Sound :=
  ⟨⟨h.legible.1, h.legible.2, h.legible.3⟩,
    ⟨h.sized.1, h.sized.2, h.sized.3, h.sized.4, h.sized.5⟩, h.version, h.enqueued, h.head,
    h.receipts, h.delivered⟩

variable {items : List AgentRemoteDelivery}

lemma validateItems_ok :
    ∀ {seen : List Text} {index : ℕ}, (∀ d ∈ items, d.Sound) → (items.map fun d => d.head).Nodup →
      (∀ d ∈ items, remoteHeadKey d.head ∉ seen) → validateItems seen index items = .ok () := by
  induction items with
  | nil => exact fun _ _ _ => rfl
  | cons d items ih =>
    intro seen index hsound hnodup hseen
    have hd := hsound d mem_cons_self
    obtain ⟨statement, hstatement⟩ := hd.head
    obtain ⟨hfresh, hnodup⟩ := nodup_cons.mp hnodup
    simp only [validateItems, checks_ok, mapError_eq_ok, forM_eq_ok]
    refine ⟨⟨hd.version, hd.enqueued⟩, statement, hstatement, hseen d mem_cons_self, hd.receipts,
      ?_, ih (fun e he => hsound e (mem_cons_of_mem d he)) hnodup fun e he hmem => ?_⟩
    · cases hdelivered : d.delivered with
      | false => rfl
      | true => simpa using hd.delivered hdelivered
    · rcases mem_cons.mp hmem with hkey | hmem
      · obtain ⟨statement', hstatement'⟩ := (hsound e (mem_cons_of_mem d he)).head
        have heq := remoteHeadKey_inj hstatement' hstatement hkey
        exact hfresh (mem_map.mpr ⟨e, he, heq⟩)
      · exact hseen e (mem_cons_of_mem d he) hmem

lemma loadState_payload (hsound : ∀ d ∈ items, d.Sound)
    (hnodup : (items.map fun d => d.head).Nodup) (hscrubbed : ∀ d ∈ items, d.scrub = d) :
    loadState (marshal (⟨agentRemoteQueueVersion, items⟩ : AgentRemoteQueueState).json ++
      [newline]) = .ok items := by
  set state : AgentRemoteQueueState := ⟨agentRemoteQueueVersion, items⟩ with hstate
  have hfits : Json.Fits maxDepth state.json := by
    refine .obj ?_
    split_ifs
    · simp
    · have hitems {n : ℕ} : Json.Fits (n + 5) (.arr (state.items.map json)) :=
        .arr (by simp [fits n])
      simpa using hitems
  have hscrub : state.json.scrub = state.json := by
    refine scrub_obj fun m hm => ?_
    simp only [mem_cons, not_mem_nil, or_false] at hm
    rcases hm with rfl | rfl
    · exact ⟨scrub_text _, scrub_str (show validUTF8 agentRemoteQueueVersion = true by decide)⟩
    · refine ⟨scrub_text _, ?_⟩
      dsimp only
      split_ifs
      · rfl
      · rw [Json.scrub, Json.scrubItems_eq_map, map_map]
        refine congrArg Json.arr (map_congr_left fun d hd => ?_)
        show d.json.scrub = d.json
        rw [scrub_json (hsound d hd).legible, hscrubbed d hd]
  have hdecode : decode AgentRemoteQueueState.member {} state.json = some state := by
    by_cases hnil : items = []
    · subst hnil
      rfl
    · change ((Json.readList {} (Json.decode member) []
        (if items = [] then .null else .arr (items.map json))).map fun v =>
          { state with items := v }).bind some = some state
      rw [if_neg hnil, readList_map fun d hd => decode_json (hsound d hd).sized]
      rfl
  simp only [loadState, checks_ok, elim_eq_ok]
  refine ⟨state, ?_, rfl, (), validateItems_ok hsound hnodup (fun _ _ => not_mem_nil), rfl⟩
  rw [newline, parse_marshal_newline hfits, Option.bind_some, hscrub, hdecode]

end

end WeaverSSH.Evidence
