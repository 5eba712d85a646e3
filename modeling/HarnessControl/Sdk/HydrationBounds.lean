import HarnessControl.Library.Fallible
import HarnessControl.Sdk.ContentHydration

/-!
# The bounds of hydration

What a reader returns is only used under the reference it was asked for, and is no longer than that
reference says.  So the bytes that were charged are at least those of the bodies.
-/

namespace HarnessControl.Sdk

open HarnessControl.Library HarnessControl.OpenCode
open HarnessControl.Harnesses (ContentFormat)

variable {Failure Result Evidence : Type} {read : Reader Failure} {options : HydrationOptions}

/-! ## What is charged -/

/-- How a kind of result is measured, and which result is that of content. -/
structure Resolution (Source Result : Type) where
  source : Result → Source
  bytes : Result → Nat
  reference? : Source → Option HarnessContentReference
  /-- The body of the result is that of the content. -/
  decodes : CompleteContent → Result → Prop

def Returned (read : Reader Failure) (calls : List ReadCall) (reference : HarnessContentReference)
    (full : CompleteContent) : Prop :=
  ∃ before call after, calls = before ++ call :: after ∧ call.reference = reference ∧
    read before call = .ok full ∧ full.reference = some reference

variable {reference : HarnessContentReference} {full : CompleteContent}

theorem Returned.append {calls more : List ReadCall} (h : Returned read calls reference full) :
    Returned read (calls ++ more) reference full := by
  obtain ⟨before, call, after, rfl, hrest⟩ := h
  refine ⟨before, call, after ++ more, ?_, hrest⟩
  rw [List.append_assoc]
  rfl

variable {Source : Type} {resolution : Resolution Source Result}

/-- A body that was referred to is in the cache, under its reference, and short enough. -/
def Backed (resolution : Resolution Source Result) (cache : Dict String CompleteContent)
    (result : Result) : Prop :=
  ∀ reference, resolution.reference? (resolution.source result) = some reference →
    ∃ full, cache.get? reference.contentId = some full ∧ full.reference = some reference ∧
      resolution.decodes full result ∧ resolution.bytes result ≤ reference.byteLength

/-- What holds between two turns of the loop. -/
structure Charged (read : Reader Failure) (options : HydrationOptions)
    (resolution : Resolution Source Result) (sources : List Source) (state : Hydration Result) :
    Prop where
  sources : state.results.map resolution.source = sources
  bytes : (state.results.map resolution.bytes).sum ≤ state.bytes
  budget : (state.bytes : Int) ≤ options.totalBytes
  keys : state.calls.map (fun call => call.reference.contentId) = state.cache.keys
  count : (state.calls.length : Int) ≤ options.references
  returned : ∀ id full, state.cache.get? id = some full → ∃ reference,
    reference.contentId = id ∧ Returned read state.calls reference full
  backed : ∀ result ∈ state.results, Backed resolution state.cache result

theorem Charged.opened (haccepted : options.accepted = true) :
    Charged read options resolution [] .opened := by
  unfold HydrationOptions.accepted at haccepted
  rw [Bool.and_eq_true, Bool.and_eq_true, Bool.and_eq_true, decide_eq_true_iff, decide_eq_true_iff,
    decide_eq_true_iff, decide_eq_true_iff] at haccepted
  have hzero : (((Hydration.opened : Hydration Result).bytes : Nat) : Int) = 0 := rfl
  exact ⟨rfl, le_refl _, by omega, rfl, by
    show ((0 : Nat) : Int) ≤ _
    omega, nofun, nofun⟩

/-! ## One turn of the loop -/

/-- Content that was fetched is that of the reference, from the cache or from one call more. -/
structure Fetched (read : Reader Failure) (options : HydrationOptions) (state : Hydration Result)
    (reference : HarnessContentReference) (full : CompleteContent) (calls : List ReadCall) :
    Prop where
  affordable : (reference.byteLength : Int) ≤ options.totalBytes - state.bytes
  reference_eq : full.reference = some reference
  place : state.cache.get? reference.contentId = some full ∧ calls = state.calls ∨
    state.cache.get? reference.contentId = none ∧ (state.cache.size : Int) < options.references ∧
      ∃ call, call.reference = reference ∧ read state.calls call = .ok full ∧
        calls = state.calls ++ [call]

variable {calls : List ReadCall}

theorem fetch_ok {state : Hydration Result}
    (h : fetch read options state reference = .ok (full, calls)) :
    Fetched read options state reference full calls := by
  unfold fetch at h
  rw [ite_error_ok] at h
  obtain ⟨hafford, h⟩ := h
  rw [not_lt] at hafford
  cases hcache : state.cache.get? reference.contentId with
  | some cached =>
    rw [hcache] at h
    dsimp only at h
    rw [ite_error_ok, not_not] at h
    obtain ⟨hreference, h⟩ := h
    obtain ⟨rfl, rfl⟩ := Prod.mk.inj (Except.ok.inj h)
    exact ⟨hafford, hreference, Or.inl ⟨hcache, rfl⟩⟩
  | none =>
    rw [hcache] at h
    dsimp only at h
    rw [ite_error_ok, not_le] at h
    obtain ⟨hroom, h⟩ := h
    split at h
    · cases h
    · rename_i returned hread
      rw [ite_error_ok, not_or, not_not] at h
      obtain ⟨⟨hreference, -⟩, h⟩ := h
      obtain ⟨rfl, rfl⟩ := Prod.mk.inj (Except.ok.inj h)
      exact ⟨hafford, hreference, Or.inr ⟨hcache, hroom, _, rfl, hread, rfl⟩⟩

theorem charge_get? {state : Hydration Result}
    {full found : CompleteContent} {result : Result} {id : String}
    (h : state.cache.get? id = some found) :
    (charge state reference full calls result).cache.get? id = some found := by
  unfold charge
  dsimp only
  split
  · exact h
  · rename_i hnone
    rw [Dict.get?_set_of_ne]
    · exact h
    · rintro rfl
      rw [h] at hnone
      exact hnone rfl

variable {sources : List Source} {state : Hydration Result} {source : Source}

theorem charge_place (hfetched : Fetched read options state reference full calls)
    (result : Result) :
    ((charge state reference full calls result).cache = state.cache ∧ calls = state.calls) ∨
    (charge state reference full calls result).cache = state.cache.set reference.contentId full ∧
      state.cache.get? reference.contentId = none ∧
      (state.cache.size : Int) < options.references ∧ ∃ call, call.reference = reference ∧
        read state.calls call = .ok full ∧ calls = state.calls ++ [call] := by
  unfold charge
  dsimp only
  obtain ⟨hcache, hcalls⟩ | ⟨hnone, hrest⟩ := hfetched.place
  · rw [hcache, Option.isSome_some, if_pos rfl]
    exact Or.inl ⟨rfl, hcalls⟩
  · rw [hnone, if_neg nofun]
    exact Or.inr ⟨rfl, rfl, hrest⟩

theorem Charged.charge {result : Result}
    (h : Charged read options resolution sources state)
    (hfetched : Fetched read options state reference full calls)
    (hsource : resolution.source result = source)
    (hreference : resolution.reference? source = some reference)
    (hdecodes : resolution.decodes full result)
    (hbytes : resolution.bytes result ≤ reference.byteLength) :
    Charged read options resolution (sources ++ [source])
      (charge state reference full calls result) := by
  have hafford := hfetched.affordable
  have hcached : (Sdk.charge state reference full calls result).cache.get? reference.contentId =
      some full := by
    obtain ⟨hcache, -⟩ | ⟨hnone, -⟩ := hfetched.place
    · exact charge_get? hcache
    · unfold Sdk.charge
      dsimp only
      rw [hnone, if_neg nofun]
      exact Dict.get?_set_self _ _ _
  constructor
  case sources =>
    show (state.results ++ [result]).map resolution.source = _
    rw [List.map_append, h.sources, ← hsource]
    rfl
  case bytes =>
    have hsum := h.bytes
    show ((state.results ++ [result]).map resolution.bytes).sum ≤ state.bytes + reference.byteLength
    rw [List.map_append, List.sum_append, List.map_singleton, List.sum_singleton]
    omega
  case budget =>
    show ((state.bytes + reference.byteLength : Nat) : Int) ≤ _
    omega
  case keys =>
    show calls.map _ = _
    obtain ⟨hcache, rfl⟩ | ⟨hcache, hnone, -, call, rfl, -, rfl⟩ := charge_place hfetched result
    · rw [hcache]
      exact h.keys
    · unfold Dict.keys
      rw [hcache, Dict.entries_set_of_none _ hnone, List.map_append, List.map_append, h.keys]
      rfl
  case count =>
    show (calls.length : Int) ≤ _
    obtain ⟨-, rfl⟩ | ⟨-, -, hroom, call, rfl, -, rfl⟩ := charge_place hfetched result
    · exact h.count
    · have hlength := congrArg List.length h.keys
      rw [List.length_map, ← Dict.size_eq_length_keys] at hlength
      rw [List.length_append, List.length_singleton]
      omega
  case returned =>
    intro id found hfound
    show ∃ other, other.contentId = id ∧ Returned read calls other found
    obtain ⟨hcache, rfl⟩ | ⟨hcache, -, -, call, rfl, hread, rfl⟩ := charge_place hfetched result
    · rw [hcache] at hfound
      exact h.returned id found hfound
    · rw [hcache, Dict.get?_set] at hfound
      split at hfound
      · rename_i hid
        obtain rfl := Option.some.inj hfound
        exact ⟨call.reference, hid.symm, state.calls, call, [], rfl, rfl, hread,
          hfetched.reference_eq⟩
      · obtain ⟨other, hother, hreturned⟩ := h.returned id found hfound
        exact ⟨other, hother, hreturned.append⟩
  case backed =>
    intro other hother
    obtain hin | rfl := List.mem_append.mp hother |>.imp_right List.mem_singleton.mp
    · intro stored hstored
      obtain ⟨found, hfound, hrest⟩ := h.backed other hin stored hstored
      exact ⟨found, charge_get? hfound, hrest⟩
    · intro stored hstored
      rw [hsource, hreference] at hstored
      obtain rfl := Option.some.inj hstored
      exact ⟨full, hcached, hfetched.reference_eq, hdecodes, hbytes⟩

theorem Charged.inline {size : Nat} {result : Result} {next : Hydration Result}
    (h : Charged read options resolution sources state)
    (hsource : resolution.source result = source)
    (hreference : resolution.reference? source = none) (hbytes : resolution.bytes result ≤ size)
    (hnext : (inline options state size result : Except (HydrationError Failure) _) = .ok next) :
    Charged read options resolution (sources ++ [source]) next := by
  unfold Sdk.inline at hnext
  rw [ite_error_ok, not_lt] at hnext
  obtain ⟨hafford, hnext⟩ := hnext
  obtain rfl := Except.ok.inj hnext
  refine ⟨?_, ?_, ?_, h.keys, h.count, h.returned, ?_⟩
  · show (state.results ++ [result]).map resolution.source = _
    rw [List.map_append, h.sources, ← hsource]
    rfl
  · have hsum := h.bytes
    show ((state.results ++ [result]).map resolution.bytes).sum ≤ state.bytes + size
    rw [List.map_append, List.sum_append, List.map_singleton, List.sum_singleton]
    omega
  · show ((state.bytes + size : Nat) : Int) ≤ _
    omega
  · intro other hother
    obtain hin | rfl := List.mem_append.mp hother |>.imp_right List.mem_singleton.mp
    · exact h.backed other hin
    · intro stored hstored
      rw [hsource, hreference] at hstored
      cases hstored

theorem inline_zero (hbudget : (state.bytes : Int) ≤ options.totalBytes) (result : Result) :
    (inline options state 0 result : Except (HydrationError Failure) _) =
      .ok { state with results := state.results ++ [result] } := by
  unfold Sdk.inline
  rw [if_neg (by omega)]
  rfl

/-! ## Parts and plans -/

def partReference (source : NativeItem Evidence) : Option HarnessContentReference :=
  match source.completedContent with
  | some (.truncated _ reference) => reference
  | _ => none

/-- The content that a returned body is: its text, the string of its JSON or, of reasoning, the texts
that its JSON lists. -/
inductive Delivers : PartType → CompleteBody → ResolvedContent → Prop where
  | text {kind : PartType} {text : Text} : Delivers kind (.text text) (.text text)
  | string {text : Text} : Delivers .text (.json (.string text)) (.text text)
  | reasoning {members : JsonMembers} {reasoning : ReasoningContent} :
    members.get? summaryKey = some (.array (textElements reasoning.summary)) →
    members.get? contentKey = some (.array (textElements reasoning.content)) →
    Delivers .reasoning (.json (.object members)) (.reasoning reasoning)

def partResolution (Evidence : Type) (kind : PartType) :
    Resolution (NativeItem Evidence) (ResolvedItem Evidence) where
  source := ResolvedItem.source
  bytes result := result.completedContent.elim 0 ResolvedContent.bytes
  reference? := partReference
  decodes full result := ∃ content, Delivers kind full.body content ∧
    result.completedContent = some content

theorem decodePart_some {kind : PartType} {body : CompleteBody} {content : ResolvedContent}
    (h : decodePart kind body = some content) :
    Delivers kind body content ∧ content.bytes ≤ body.bytes := by
  cases body with
  | text body =>
    obtain rfl := Option.some.inj h
    exact ⟨.text, le_refl _⟩
  | json value =>
    cases kind with
    | text =>
      cases value with
      | string body =>
        obtain rfl := Option.some.inj h
        exact ⟨.string, bytes_stringified body⟩
      | _ => cases h
    | reasoning =>
      obtain ⟨reasoning, hreasoning, rfl⟩ := Option.map_eq_some_iff.mp h
      obtain ⟨members, rfl, hsummary, hcontent, hbytes⟩ := reasoningContentSchema_some hreasoning
      exact ⟨.reasoning hsummary hcontent, hbytes⟩

theorem hydratePart_charged {kind : PartType} {sources : List (NativeItem Evidence)}
    {state next : Hydration (ResolvedItem Evidence)} {source : NativeItem Evidence}
    (h : Charged read options (partResolution Evidence kind) sources state)
    (hnext : hydratePart read options kind state source = .ok next) :
    Charged read options (partResolution Evidence kind) (sources ++ [source]) next := by
  obtain ⟨evidence, content⟩ := source
  match content with
  | none =>
    have hinline : inline options state 0 (⟨⟨evidence, none⟩, none⟩ : ResolvedItem Evidence) =
        (.ok next : Except (HydrationError Failure) _) := by
      rw [inline_zero h.budget]
      exact hnext
    exact h.inline rfl rfl (Nat.le_refl 0) hinline
  | some (.text body) =>
    have hinline : inline options state (textSize body)
        ⟨⟨evidence, some (.text body)⟩, some (.text body)⟩ =
          (.ok next : Except (HydrationError Failure) _) := hnext
    exact h.inline rfl rfl (Nat.le_refl (textSize body)) hinline
  | some (.reasoning body) =>
    have hinline : inline options state body.value.bytes
        ⟨⟨evidence, some (.reasoning body)⟩, some (.reasoning body)⟩ =
          (.ok next : Except (HydrationError Failure) _) := hnext
    exact h.inline rfl rfl (Nat.le_refl body.value.bytes) hinline
  | some (.truncated _ none) => cases hnext
  | some (.truncated _ (some reference)) =>
    obtain ⟨⟨full, calls⟩, hfetch, hnext⟩ := bind_ok.mp hnext
    dsimp only at hnext
    split at hnext
    · cases hnext
    · rename_i content hdecode
      rw [ite_error_ok, not_or, not_lt] at hnext
      obtain ⟨⟨hlength, -⟩, hnext⟩ := hnext
      obtain rfl := Except.ok.inj hnext
      obtain ⟨hdelivers, hbytes⟩ := decodePart_some hdecode
      exact h.charge (fetch_ok hfetch) rfl rfl ⟨content, hdelivers, rfl⟩ (hbytes.trans hlength)

def planReference (source : ProposedPlan Evidence) : Option HarnessContentReference :=
  match source.completed with
  | some (.truncated _ reference) => reference
  | _ => none

def planResolution (Evidence : Type) :
    Resolution (ProposedPlan Evidence) (ResolvedPlan Evidence) where
  source := ResolvedPlan.source
  bytes result := result.completedPlan.elim 0 textSize
  reference? := planReference
  decodes full result := ∃ body, full.body = .text body ∧ result.completedPlan = some body

theorem hydratePlan_charged {sources : List (ProposedPlan Evidence)}
    {state next : Hydration (ResolvedPlan Evidence)} {source : ProposedPlan Evidence}
    (h : Charged read options (planResolution Evidence) sources state)
    (hnext : hydratePlan read options state source = .ok next) :
    Charged read options (planResolution Evidence) (sources ++ [source]) next := by
  obtain ⟨evidence, content⟩ := source
  match content with
  | none =>
    have hinline : inline options state 0 (⟨⟨evidence, none⟩, none⟩ : ResolvedPlan Evidence) =
        (.ok next : Except (HydrationError Failure) _) := by
      rw [inline_zero h.budget]
      exact hnext
    exact h.inline rfl rfl (Nat.le_refl 0) hinline
  | some (.text body) =>
    have hinline : inline options state (textSize body)
        ⟨⟨evidence, some (.text body)⟩, some body⟩ =
          (.ok next : Except (HydrationError Failure) _) := hnext
    exact h.inline rfl rfl (Nat.le_refl (textSize body)) hinline
  | some (.truncated _ none) => cases hnext
  | some (.truncated _ (some reference)) =>
    obtain ⟨⟨full, calls⟩, hfetch, hnext⟩ := bind_ok.mp hnext
    dsimp only at hnext
    split at hnext
    · cases hnext
    · rename_i body hbody
      rw [ite_error_ok, not_lt] at hnext
      obtain ⟨hlength, hnext⟩ := hnext
      obtain rfl := Except.ok.inj hnext
      exact h.charge (fetch_ok hfetch) rfl rfl ⟨body, hbody, rfl⟩ hlength

/-! ## Hydration that returns -/

/-- What holds of the bodies and of the calls, where hydration returns. -/
structure Hydrated (read : Reader Failure) (options : HydrationOptions)
    (resolution : Resolution Source Result) (sources : List Source) (state : Hydration Result) :
    Prop where
  origins : state.results.map resolution.source = sources
  total : ((state.results.map resolution.bytes).sum : Int) ≤ options.totalBytes
  count : (state.calls.length : Int) ≤ options.references
  once : (state.calls.map fun call => call.reference.contentId).Nodup
  returned : ∀ result ∈ state.results, ∀ reference,
    resolution.reference? (resolution.source result) = some reference →
      ∃ full, Returned read state.calls reference full ∧ resolution.decodes full result ∧
        resolution.bytes result ≤ reference.byteLength
  unique : ∀ source ∈ sources, ∀ other ∈ sources, ∀ reference changed,
    resolution.reference? source = some reference → resolution.reference? other = some changed →
      reference.contentId = changed.contentId → reference = changed

theorem Charged.cached (h : Charged read options resolution sources state)
    (hsource : source ∈ sources) {reference : HarnessContentReference}
    (hreference : resolution.reference? source = some reference) :
    ∃ full, state.cache.get? reference.contentId = some full ∧
      full.reference = some reference := by
  rw [← h.sources] at hsource
  obtain ⟨result, hresult, rfl⟩ := List.mem_map.mp hsource
  obtain ⟨full, hcache, hfull, -⟩ := h.backed result hresult reference hreference
  exact ⟨full, hcache, hfull⟩

theorem Charged.hydrated (h : Charged read options resolution sources state) :
    Hydrated read options resolution sources state where
  origins := h.sources
  total := by
    have hbytes := h.bytes
    have hbudget := h.budget
    omega
  count := h.count
  once := by
    rw [h.keys]
    exact state.cache.nodup
  returned := by
    intro result hresult reference hreference
    obtain ⟨full, hcache, hfull, hdecodes, hbytes⟩ := h.backed result hresult reference hreference
    obtain ⟨other, -, hreturned⟩ := h.returned _ full hcache
    have hother := hreturned
    obtain ⟨_, _, _, _, _, _, hreturnedFor⟩ := hother
    rw [hfull] at hreturnedFor
    obtain rfl := Option.some.inj hreturnedFor
    exact ⟨full, hreturned, hdecodes, hbytes⟩
  unique := by
    intro source hsource other hother reference changed hreference hchanged hid
    obtain ⟨full, hcache, hfull⟩ := h.cached hsource hreference
    obtain ⟨found, hfound, hfoundFor⟩ := h.cached hother hchanged
    rw [← hid, hcache] at hfound
    obtain rfl := Option.some.inj hfound
    rw [hfull] at hfoundFor
    exact Option.some.inj hfoundFor

/-- Whatever the reader does, hydration that returns is within its bounds. -/
theorem content_hydrated (read : Reader Failure) (options : HydrationOptions) :
    (∀ kind (items : List (NativeItem Evidence)) state,
      hydrateNativeParts read options kind items = .ok state →
        Hydrated read options (partResolution Evidence kind) items state) ∧
    ∀ (plans : Except (HydrationError Failure) (List (ProposedPlan Evidence))) state,
      projectHcpProposedPlansComplete read options plans = .ok state →
        ∃ items, plans = .ok items ∧
          Hydrated read options (planResolution Evidence) items state := by
  constructor
  · intro kind items state hstate
    unfold hydrateNativeParts at hstate
    rw [ite_error_ok, Bool.not_eq_true, Bool.not_eq_false'] at hstate
    obtain ⟨haccepted, hrun⟩ := hstate
    have hcharged := foldlM_keeps (P := Charged read options (partResolution Evidence kind))
      (fun _ _ _ _ => hydratePart_charged) (Charged.opened haccepted) hrun
    exact hcharged.hydrated
  · intro plans state hstate
    obtain ⟨items, hitems, hstate⟩ := bind_ok.mp hstate
    rw [ite_error_ok, Bool.not_eq_true, Bool.not_eq_false'] at hstate
    obtain ⟨haccepted, hrun⟩ := hstate
    have hcharged := foldlM_keeps (P := Charged read options (planResolution Evidence))
      (fun _ _ _ _ => hydratePlan_charged) (Charged.opened haccepted) hrun
    exact ⟨items, hitems, hcharged.hydrated⟩

/-- A reference to the text `ab`, and a reader that has it. -/
def sampleReference : HarnessContentReference :=
  ⟨"ca978112ca1bbdcafac231b39a23dc4da786eff8147c4e72b9807785afee48bb",
    "fb8e20fc2e4c3f248c60c39bd652f3c1347298bb977b8b4d5903b85055620603", 2, .text,
    "2030-01-01T00:00:00Z"⟩

def sampleReader : Reader Unit := fun _ call =>
  if call.reference = sampleReference then .ok ⟨some sampleReference, .text (Utf16.text "ab")⟩
  else .error ()

def sampleOptions : HydrationOptions := ⟨none, some 8, none⟩

def sampleItems : List (NativeItem Unit) :=
  [⟨(), some (.truncated [] (some sampleReference))⟩, ⟨(), some (.text (Utf16.text "four"))⟩,
    ⟨(), some (.truncated [] (some sampleReference))⟩]

def samplePlans : List (ProposedPlan Unit) :=
  [⟨(), some (.truncated [] (some sampleReference))⟩, ⟨(), none⟩]

/-- Two bodies of one reference and one inline have eight bytes, and take one call. -/
theorem content_hydrated_repeated :
    (∃ state, hydrateNativeParts sampleReader sampleOptions .text sampleItems = .ok state ∧
      state.calls.length = 1 ∧
        Hydrated sampleReader sampleOptions (partResolution Unit .text) sampleItems state) ∧
    ∃ state plans,
      projectHcpProposedPlansComplete sampleReader sampleOptions (.ok samplePlans) = .ok state ∧
        Hydrated sampleReader sampleOptions (planResolution Unit) plans state := by
  constructor
  · have hrun : ∃ state, hydrateNativeParts sampleReader sampleOptions .text sampleItems =
        .ok state ∧ state.calls.length = 1 := ⟨_, rfl, rfl⟩
    obtain ⟨state, hstate, hcalls⟩ := hrun
    have hhydrated := (content_hydrated sampleReader sampleOptions).1 .text sampleItems state hstate
    exact ⟨state, hstate, hcalls, hhydrated⟩
  · have hrun : ∃ state, projectHcpProposedPlansComplete sampleReader sampleOptions
        (.ok samplePlans) = .ok state := ⟨_, rfl⟩
    obtain ⟨state, hstate⟩ := hrun
    obtain ⟨plans, -, hhydrated⟩ := (content_hydrated sampleReader sampleOptions).2 _ _ hstate
    exact ⟨state, plans, hstate, hhydrated⟩

end HarnessControl.Sdk
