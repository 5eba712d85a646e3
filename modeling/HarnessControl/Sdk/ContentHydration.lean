import HarnessControl.Harnesses.ContentStore
import HarnessControl.Sdk.RetainedValues

/-!
# Hydrating deferred content

Completed bodies that an event only refers to are read, each reference once, and charged against one
budget with the bodies that are inline.  The reader may return anything.
-/

namespace HarnessControl.Sdk

open HarnessControl.Library HarnessControl.OpenCode
open HarnessControl.Harnesses (ContentFormat)

/-! ## References and their content -/

structure HarnessContentReference where
  contentId : String
  sha256 : String
  byteLength : Nat
  format : ContentFormat
  expiresAt : String
deriving DecidableEq

inductive CompleteBody where
  | text (text : Text)
  | json (value : JsonValue)

/-- `HcpCompleteContent`, as any reader returns it. -/
structure CompleteContent where
  /-- The reference whose JSON the metadata have, if there is one. -/
  reference : Option HarnessContentReference
  body : CompleteBody

namespace CompleteBody

def format : CompleteBody → ContentFormat
  | .text _ => .text
  | .json _ => .json

def bytes : CompleteBody → Nat
  | .text body => textSize body
  | .json value => value.bytes

end CompleteBody

structure ReadCall where
  reference : HarnessContentReference
  maxBytes : Int

/-- A reader may depend on the calls before. -/
abbrev Reader (Failure : Type) := List ReadCall → ReadCall → Except Failure CompleteContent

inductive HydrationError (Failure : Type) where
  /-- `HcpContentReadError("limit")`. -/
  | limit
  /-- `HcpContentReadError("reference_changed")`. -/
  | referenceChanged
  /-- The error of the projection. -/
  | projection
  | reader (failure : Failure)

structure HydrationOptions where
  maxBytes : Option Int
  maxTotalBytes : Option Int
  maxReferences : Option Int

namespace HydrationOptions

def totalBytes (options : HydrationOptions) : Int := options.maxTotalBytes.getD (8 * 1024 * 1024)

def references (options : HydrationOptions) : Int := options.maxReferences.getD 128

def accepted (options : HydrationOptions) : Bool :=
  decide (1 ≤ options.totalBytes) && decide (options.totalBytes ≤ 64 * 1024 * 1024) &&
    decide (1 ≤ options.references) && decide (options.references ≤ 128)

end HydrationOptions

structure Hydration (Result : Type) where
  cache : Dict String CompleteContent
  bytes : Nat
  calls : List ReadCall
  results : List Result

namespace Hydration

def opened {Result : Type} : Hydration Result := ⟨.empty, 0, [], []⟩

end Hydration

section

variable {Failure Result : Type} (read : Reader Failure) (options : HydrationOptions)

/-- The content of a reference, from the cache or from the reader. -/
def fetch (state : Hydration Result) (reference : HarnessContentReference) :
    Except (HydrationError Failure) (CompleteContent × List ReadCall) :=
  if options.totalBytes - state.bytes < reference.byteLength then .error .limit
  else
    match state.cache.get? reference.contentId with
    | some full =>
      if full.reference ≠ some reference then .error .referenceChanged
      else .ok (full, state.calls)
    | none =>
      if options.references ≤ state.cache.size then .error .limit
      else
        let call : ReadCall := ⟨reference, max 1
          (min (options.maxBytes.getD (8 * 1024 * 1024)) (options.totalBytes - state.bytes))⟩
        match read state.calls call with
        | .error failure => .error (.reader failure)
        | .ok full =>
          if full.reference ≠ some reference ∨ full.body.format ≠ reference.format then
            .error .referenceChanged
          else .ok (full, state.calls ++ [call])

/-- The state after a body that was referred to. -/
def charge (state : Hydration Result) (reference : HarnessContentReference)
    (full : CompleteContent) (calls : List ReadCall) (result : Result) : Hydration Result :=
  { cache :=
      if (state.cache.get? reference.contentId).isSome then state.cache
      else state.cache.set reference.contentId full
    bytes := state.bytes + reference.byteLength
    calls := calls
    results := state.results ++ [result] }

/-- The state after a body of some bytes that was inline, or after no body. -/
def inline (state : Hydration Result) (size : Nat) (result : Result) :
    Except (HydrationError Failure) (Hydration Result) :=
  if options.totalBytes - state.bytes < size then .error .limit
  else .ok { state with bytes := state.bytes + size, results := state.results ++ [result] }

end

/-! ## Native parts -/

/-- `completed_content` of an item. -/
inductive ItemContent where
  | text (text : Text)
  | reasoning (reasoning : ReasoningContent)
  | truncated (summary : Text) (reference : Option HarnessContentReference)

/-- An item, with the evidence that hydration hands back as it is. -/
structure NativeItem (Evidence : Type) where
  evidence : Evidence
  completedContent : Option ItemContent

inductive ResolvedContent where
  | text (text : Text)
  | reasoning (reasoning : ReasoningContent)

def ResolvedContent.bytes : ResolvedContent → Nat
  | .text body => textSize body
  | .reasoning body => body.value.bytes

structure ResolvedItem (Evidence : Type) where
  source : NativeItem Evidence
  completedContent : Option ResolvedContent

/-- `parseJson`, which takes a string for a text, and reasoning for reasoning. -/
def parseJson : PartType → JsonValue → Option ResolvedContent
  | .text, .string text => some (.text text)
  | .text, _ => none
  | .reasoning, value => (reasoningContentSchema value).map .reasoning

def decodePart (kind : PartType) : CompleteBody → Option ResolvedContent
  | .text text => some (.text text)
  | .json value => parseJson kind value

section

variable {Failure Evidence : Type} (read : Reader Failure) (options : HydrationOptions)
  (kind : PartType)

/-- One turn of the loop of `hydrateNativeParts`. -/
def hydratePart (state : Hydration (ResolvedItem Evidence)) (source : NativeItem Evidence) :
    Except (HydrationError Failure) (Hydration (ResolvedItem Evidence)) :=
  match source.completedContent with
  | none => .ok { state with results := state.results ++ [⟨source, none⟩] }
  | some (.text text) => inline options state (textSize text) ⟨source, some (.text text)⟩
  | some (.reasoning reasoning) =>
    inline options state reasoning.value.bytes ⟨source, some (.reasoning reasoning)⟩
  | some (.truncated _ none) => .error .projection
  | some (.truncated _ (some reference)) =>
    (fetch read options state reference).bind fun (full, calls) =>
      match decodePart kind full.body with
      | none => .error .projection
      | some content =>
        if reference.byteLength < full.body.bytes ∨
            options.totalBytes - state.bytes < full.body.bytes then .error .limit
        else .ok (charge state reference full calls ⟨source, some content⟩)

def hydrateNativeParts (items : List (NativeItem Evidence)) :
    Except (HydrationError Failure) (Hydration (ResolvedItem Evidence)) :=
  if !options.accepted then .error .limit
  else items.foldlM (hydratePart read options kind) .opened

end

/-! ## Proposed plans -/

/-- `completed` of a plan. -/
inductive PlanContent where
  | text (text : Text)
  | truncated (summary : Text) (reference : Option HarnessContentReference)

structure ProposedPlan (Evidence : Type) where
  evidence : Evidence
  completed : Option PlanContent

structure ResolvedPlan (Evidence : Type) where
  source : ProposedPlan Evidence
  completedPlan : Option Text

section

variable {Failure Evidence : Type} (read : Reader Failure) (options : HydrationOptions)

/-- One turn of the loop of `projectHcpProposedPlansComplete`. -/
def hydratePlan (state : Hydration (ResolvedPlan Evidence)) (source : ProposedPlan Evidence) :
    Except (HydrationError Failure) (Hydration (ResolvedPlan Evidence)) :=
  match source.completed with
  | none => .ok { state with results := state.results ++ [⟨source, none⟩] }
  | some (.text text) => inline options state (textSize text) ⟨source, some text⟩
  | some (.truncated _ none) => .error .projection
  | some (.truncated _ (some reference)) =>
    (fetch read options state reference).bind fun (full, calls) =>
      match full.body with
      | .json _ => .error .projection
      | .text text =>
        if reference.byteLength < textSize text then .error .limit
        else .ok (charge state reference full calls ⟨source, some text⟩)

/-- `projectHcpProposedPlansComplete`, from what `projectHcpProposedPlans` gives. -/
def projectHcpProposedPlansComplete
    (plans : Except (HydrationError Failure) (List (ProposedPlan Evidence))) :
    Except (HydrationError Failure) (Hydration (ResolvedPlan Evidence)) :=
  plans.bind fun plans =>
    if !options.accepted then .error .limit
    else plans.foldlM (hydratePlan read options) .opened

end

end HarnessControl.Sdk
