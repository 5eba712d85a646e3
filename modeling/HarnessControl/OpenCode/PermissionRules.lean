import HarnessControl.Library.Fallible
import HarnessControl.Library.OrderedRules
import HarnessControl.Protocol.Json

/-!
# Permission rules of OpenCode

A session is confirmed by reading its rules back: they have to decide like the rules of its policy, or
be the ordered rules that it was given.  A child session has the denials of its parent first, and gets
the rules of its parent after them.
-/

namespace HarnessControl.OpenCode

open HarnessControl.Library HarnessControl.Protocol

/-! ## Rules -/

inductive PermissionAction where
  | allow
  | ask
  | deny
deriving DecidableEq

def PermissionAction.text : PermissionAction → String
  | .allow => "allow"
  | .ask => "ask"
  | .deny => "deny"

structure HarnessPermissionRule where
  permission : String
  pattern : String
  action : PermissionAction
deriving DecidableEq

abbrev HarnessPermissionRules := List HarnessPermissionRule

def isControl (c : Char) : Bool := decide (c.toNat ≤ 0x1F) || c.toNat == 0x7F

/-- `harnessPermissionRuleSchema`. -/
def HarnessPermissionRule.valid (rule : HarnessPermissionRule) : Bool :=
  (rule.permission == "*" || tokenText ['_'] 63 rule.permission) &&
    boundedText 1024 rule.pattern && rule.pattern.toList.all fun c => !isControl c

/-- `harnessPermissionRulesSchema`. -/
def validRules (rules : HarnessPermissionRules) : Bool :=
  decide (1 ≤ rules.length) && decide (rules.length ≤ 128) && rules.all HarnessPermissionRule.valid &&
    rules.head?.all fun rule => rule.permission == "*" && rule.pattern == "*"

/-! ## Reading rules -/

def readAction : Json → Option PermissionAction
  | .str "allow" => some .allow
  | .str "ask" => some .ask
  | .str "deny" => some .deny
  | _ => none

def readText : Json → Option String
  | .str text => some text
  | _ => none

/-- `z.object({permission, pattern, action})`, `strict` where no other key is allowed; a strict
object does not look at an own key `__proto__`. -/
def readRule (strict : Bool) : Json → Option HarnessPermissionRule
  | .obj fields =>
    if strict && fields.keys.any (fun key =>
        key != "__proto__" && !(["permission", "pattern", "action"].contains key)) then
      none
    else do
      let permission ← (fields.get? "permission").bind readText
      let pattern ← (fields.get? "pattern").bind readText
      let action ← (fields.get? "action").bind readAction
      some ⟨permission, pattern, action⟩
  | _ => none

def elementsOf : JsonList → List Json
  | .nil => []
  | .cons head tail => head :: elementsOf tail

def readArray {α : Type} (read : Json → Option α) : Json → Option (List α)
  | .arr elements => (elementsOf elements).mapM read
  | _ => none

def readRules (strict : Bool) : Json → Option HarnessPermissionRules := readArray (readRule strict)

/-! ## Errors -/

inductive PolicyError where
  /-- What a schema throws. -/
  | zod
  | adapter (code message : String)
deriving DecidableEq

abbrev Policed (α : Type) := Except PolicyError α

def PolicyError.orElse {α : Type} (value : Option α) (error : PolicyError) : Policed α :=
  match value with
  | some value => .ok value
  | none => .error error

/-! ## Policies -/

inductive OpenCodePolicy where
  | ask
  | autoEdits
  | fullAccess
deriving DecidableEq

inductive HarnessApprovalOptions where
  | promptCategories
    (sandboxEscalation executionRules skillExecution permissionRequests mcpElicitation : Bool)
  | rejectUnapproved
  | permissionRules (rules : HarnessPermissionRules)

/-- `harnessApprovalOptionsSchema`. -/
def HarnessApprovalOptions.valid : HarnessApprovalOptions → Bool
  | .promptCategories .. | .rejectUnapproved => true
  | .permissionRules rules => validRules rules

def openCodePermissionNames : List String :=
  ["*", "bash", "edit", "question", "task", "read", "glob", "grep", "list", "lsp", "todowrite",
    "todoread", "skill", "webfetch", "websearch", "codesearch", "external_directory", "doom_loop"]

def HarnessPermissionRule.names (name : String) (rule : HarnessPermissionRule) : Bool :=
  rule.permission == "*" || rule.permission == name

def openCodeOrderedRules (policy : OpenCodePolicy) (background : Bool)
    (options : HarnessApprovalOptions) : Policed HarnessPermissionRules :=
  if !options.valid then .error .zod
  else
    let unsupported : PolicyError := .adapter "approval_options_unsupported"
      "Ordered native permission rules require a controlled ask profile and declared permissions."
    match options with
    | .permissionRules rules =>
      if policy ≠ .ask ∨
          rules.any (fun rule => !openCodePermissionNames.contains rule.permission) then
        .error unsupported
      else if background then
        if rules.head?.map HarnessPermissionRule.action ≠ some .deny then
          .error (.adapter "native_child_policy_seed_required"
            ("Ordered background policy requires an initial deny-all seed before " ++
              "effective overrides."))
        else .ok rules
      else
        let lastTask := rules.reverse.find? (HarnessPermissionRule.names "task")
        if lastTask.map HarnessPermissionRule.pattern ≠ some "*" ∨
            lastTask.map HarnessPermissionRule.action ≠ some .deny then
          .error (.adapter "native_permission_task_unsupported"
            "Root-only ordered policy requires a final all-pattern task denial.")
        else .ok rules
    | .promptCategories .. | .rejectUnapproved => .error unsupported

/-- `permissionRules` without options. -/
def policyRules (policy : OpenCodePolicy) (background : Bool) : HarnessPermissionRules :=
  [⟨"*", "*", if policy = .fullAccess then .allow else .ask⟩] ++
    (if policy = .autoEdits then [⟨"edit", "*", .allow⟩] else []) ++
    [⟨"question", "*", if policy = .fullAccess then .deny else .allow⟩,
      ⟨"task", "*", if background then .allow else .deny⟩]

def permissionRules (policy : OpenCodePolicy) (background : Bool)
    (options : Option HarnessApprovalOptions) : Policed HarnessPermissionRules :=
  match options with
  | some options => openCodeOrderedRules policy background options
  | none => .ok (policyRules policy background)

/-! ## Confirming a session -/

def ruleJson (rule : HarnessPermissionRule) : Json :=
  .obj (.ofList [("permission", .str rule.permission), ("pattern", .str rule.pattern),
    ("action", .str rule.action.text)])

def rulesJson (rules : HarnessPermissionRules) : Json := .arr (.ofList (rules.map ruleJson))

def readSessionRules (actual : Json) : Option HarnessPermissionRules :=
  (readRules true actual).filter fun rules =>
    rules.all (fun rule => ["*", "edit", "question", "task"].contains rule.permission &&
      rule.pattern == "*") && decide (1 ≤ rules.length) && decide (rules.length ≤ 4096)

/-- The action of the last rule of a name. -/
def effective (rules : HarnessPermissionRules) (permission : String) : Option PermissionAction :=
  (rules.reverse.find? (HarnessPermissionRule.names permission)).map HarnessPermissionRule.action

def assertOpenCodeSessionPolicy (actual : Json) (policy : OpenCodePolicy) (background : Bool)
    (options : Option HarnessApprovalOptions) : Policed Unit :=
  match options with
  | some options =>
    (openCodeOrderedRules policy background options).bind fun expected =>
      if !actual.deepEqual (rulesJson expected) then
        .error (.adapter "native_policy_mismatch"
          ("OpenCode ordered permission readback differs from the complete authorized rules."))
      else .ok ()
  | none =>
    let expected := policyRules policy background
    let accepted := match readSessionRules actual with
      | some rules => ["*", "edit", "question", "task"].all fun name =>
        effective rules name == effective expected name
      | none => false
    if accepted then .ok ()
    else .error (.adapter "native_policy_mismatch"
      ("OpenCode retained permissions differ from the complete authorized session " ++
        "permission policy."))

/-! ## Child sessions -/

def taskDenial : HarnessPermissionRule := ⟨"task", "*", .deny⟩

def openCodeOrderedChildRules (input : HarnessPermissionRules) : Policed HarnessPermissionRules :=
  if !validRules input then .error .zod
  else if input.head?.map HarnessPermissionRule.action ≠ some .deny then
    .error (.adapter "native_child_policy_seed_required"
      ("Ordered child authority requires an initial deny-all parent seed before " ++
        "effective overrides."))
  else .ok (input ++ [taskDenial])

/-- The rules of its parent that a native child has from the start. -/
def inheritedRules (parent : HarnessPermissionRules) : HarnessPermissionRules :=
  parent.filter fun rule => rule.action == .deny || rule.permission == "external_directory"

def assertOpenCodeInitialChildPolicy (actual : Json) (parent : HarnessPermissionRules) :
    Policed Unit :=
  (openCodeOrderedChildRules parent).bind fun _ =>
    let expected := inheritedRules parent
    match (readRules true actual).filter fun rules => decide (rules.length ≤ 130) with
    | none => .error (.adapter "native_child_policy_mismatch"
      "Native child initial permissions did not preserve their exact parent denial seed.")
    | some rules =>
      if rules.take expected.length ≠ expected then
        .error (.adapter "native_child_policy_mismatch"
          "Native child initial permissions did not preserve their exact parent denial seed.")
      else
        let extra := rules.drop expected.length
        if 2 < extra.length ∨ ¬ (extra.map HarnessPermissionRule.permission).Nodup ∨
            extra.any (fun rule => !(["task", "todowrite"].contains rule.permission) ||
              rule.pattern != "*" || rule.action != .deny) then
          .error (.adapter "native_child_policy_mismatch"
            "Native child initialization added authority outside its permitted default denials.")
        else .ok ()

def openCodeInstalledChildRules (initial : Json) (parent : HarnessPermissionRules) :
    Policed HarnessPermissionRules :=
  (assertOpenCodeInitialChildPolicy initial parent).bind fun _ =>
    (PolicyError.orElse ((readRules true initial).filter fun rules =>
        decide (rules.length ≤ 130) && rules.all HarnessPermissionRule.valid) .zod).bind
      fun inherited =>
        (openCodeOrderedChildRules parent).bind fun child =>
          .ok (inherited ++ child ++ inherited.drop (inheritedRules parent).length)

/-! ## Agents -/

/-- `Object.entries(openCodeAgentPermission(policy))`, each for all paths. -/
def openCodeAgentPermission (policy : OpenCodePolicy) : HarnessPermissionRules :=
  [⟨"*", "*", if policy = .fullAccess then .allow else .ask⟩] ++
    (if policy = .autoEdits then [⟨"edit", "*", .allow⟩] else []) ++
    [⟨"question", "*", if policy = .fullAccess then .deny else .allow⟩, ⟨"task", "*", .allow⟩]

structure OpenCodeAgent where
  name : String
  permission : HarnessPermissionRules

def readAgent : Json → Option OpenCodeAgent
  | .obj fields => do
    let name ← (fields.get? "name").bind readText
    let permission ← (fields.get? "permission").bind (readRules false)
    some ⟨name, permission⟩
  | _ => none

/-- The index of the last rule for all names and paths. -/
def lastWildcard (rules : HarnessPermissionRules) : Option Nat :=
  (rules.zipIdx.foldl (fun wildcard entry =>
    if entry.1.permission = "*" ∧ entry.1.pattern = "*" then some entry.2 else wildcard) none)

def agentConfirmed (policy : OpenCodePolicy) (agent : OpenCodeAgent) : Bool :=
  let expected := openCodeAgentPermission policy
  match lastWildcard agent.permission with
  | none => false
  | some wildcard =>
    (agent.permission.drop wildcard).take expected.length == expected &&
      (agent.permission.drop (wildcard + expected.length)).all fun rule =>
        rule.permission == "external_directory"

def assertOpenCodeAgentPermission (value : Json) (policy : OpenCodePolicy) : Policed Unit :=
  (PolicyError.orElse (readArray readAgent value) .zod).bind fun agents =>
    if agents = [] then
      .error (.adapter "native_policy_mismatch"
        "OpenCode did not confirm native agent permissions.")
    else if agents.all (agentConfirmed policy) then .ok ()
    else .error (.adapter "native_policy_mismatch"
      "OpenCode native agents did not preserve the authorized background policy.")

end HarnessControl.OpenCode
