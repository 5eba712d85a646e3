import HarnessControl.OpenCode.PermissionRules

/-!
# What permission rules decide

The last rule that matches the name and the path of a permission decides on it.  What is confirmed of a
session, a child or an agent by a few names or a prefix of its rules holds for all names and paths.
-/

namespace HarnessControl.OpenCode

open HarnessControl.Library HarnessControl.Protocol

section

variable {Path : Type} (globs : String → Path → Bool)

def HarnessPermissionRule.applies (rule : HarnessPermissionRule) (key : String × Path) : Bool :=
  rule.names key.1 && globs rule.pattern key.2

/-- What the last rule that matches says. -/
def decision (rules : HarnessPermissionRules) (name : String) (path : Path) :
    Option PermissionAction :=
  decide? (HarnessPermissionRule.applies globs) HarnessPermissionRule.action rules (name, path)

end

/-! ## Probed names -/

/-- Rules for all paths, of the names that are probed. -/
def Restricted (rules : HarnessPermissionRules) : Prop :=
  ∀ rule ∈ rules, rule.permission ∈ ["*", "edit", "question", "task"] ∧ rule.pattern = "*"

theorem restricted_policyRules (policy : OpenCodePolicy) (background : Bool) :
    Restricted (policyRules policy background) := by
  unfold Restricted
  cases policy <;> cases background <;> decide

variable {rules : HarnessPermissionRules}

theorem readSessionRules_restricted {actual : Json}
    (h : readSessionRules actual = some rules) :
    readRules true actual = some rules ∧ Restricted rules := by
  unfold readSessionRules at h
  rw [Option.filter_eq_some_iff] at h
  obtain ⟨hread, hchecked⟩ := h
  refine ⟨hread, fun rule hrule => ?_⟩
  rw [Bool.and_eq_true, Bool.and_eq_true, List.all_eq_true] at hchecked
  have hone := hchecked.1.1 rule hrule
  rw [Bool.and_eq_true, List.contains_iff_mem, beq_iff_eq] at hone
  exact hone

def probe (name : String) : String :=
  if name ∈ ["*", "edit", "question", "task"] then name else "*"

theorem probe_mem (name : String) : probe name ∈ ["*", "edit", "question", "task"] := by
  unfold probe
  split
  · assumption
  · exact List.mem_cons_self

section Decisions

variable {Path : Type} {globs : String → Path → Bool} (hstar : ∀ path, globs "*" path = true)
include hstar

theorem decision_restricted (h : Restricted rules)
    (name : String) (path : Path) : decision globs rules name path = effective rules (probe name) := by
  unfold decision decide? effective
  congr 1
  apply lastMatch_congr
  intro rule hrule
  obtain ⟨hname, hpattern⟩ := h rule hrule
  unfold HarnessPermissionRule.applies
  rw [hpattern, hstar, Bool.and_true]
  unfold probe
  split
  · rfl
  · -- a name that no rule has
    rename_i hother
    unfold HarnessPermissionRule.names
    have hne : rule.permission ≠ name := fun h => hother (h ▸ hname)
    rw [beq_false_of_ne hne, Bool.or_false, Bool.or_self]

theorem session_decision {actual : Json} {policy : OpenCodePolicy} {background : Bool}
    (h : assertOpenCodeSessionPolicy actual policy background none = .ok ()) :
    ∃ rules, readRules true actual = some rules ∧ ∀ name path,
      decision globs rules name path = decision globs (policyRules policy background) name path := by
  unfold assertOpenCodeSessionPolicy at h
  dsimp only at h
  cases hread : readSessionRules actual with
  | none =>
    rw [hread] at h
    cases h
  | some rules =>
    rw [hread] at h
    change (if (["*", "edit", "question", "task"].all fun name =>
      effective rules name == effective (policyRules policy background) name) = true then _
      else _) = _ at h
    obtain ⟨hrules, hrestricted⟩ := readSessionRules_restricted hread
    have hprobes : ∀ name ∈ ["*", "edit", "question", "task"],
        effective rules name = effective (policyRules policy background) name := by
      split at h
      · rename_i haccepted
        intro name hname
        exact eq_of_beq (List.all_eq_true.mp haccepted name hname)
      · cases h
    refine ⟨rules, hrules, fun name path => ?_⟩
    rw [decision_restricted hstar hrestricted,
      decision_restricted hstar (restricted_policyRules policy background)]
    exact hprobes (probe name) (probe_mem name)

theorem ordered_task {policy : OpenCodePolicy} {options : HarnessApprovalOptions}
    (h : openCodeOrderedRules policy false options = .ok rules) (path : Path) :
    decision globs rules "task" path = some .deny := by
  unfold openCodeOrderedRules at h
  split at h
  · cases h
  cases options with
  | promptCategories _ _ _ _ _ => cases h
  | rejectUnapproved => cases h
  | permissionRules accepted =>
    dsimp only at h
    split at h
    · cases h
    rw [if_neg Bool.false_ne_true] at h
    split at h
    · cases h
    rename_i hlast
    obtain rfl := Except.ok.inj h
    rw [not_or, not_not, not_not] at hlast
    obtain ⟨hpattern, haction⟩ := hlast
    obtain ⟨rule, hrule, hdeny⟩ := Option.map_eq_some_iff.mp haction
    rw [hrule] at hpattern
    have hstars : rule.pattern = "*" := Option.some.inj hpattern
    have hlast : lastMatch (HarnessPermissionRule.names "task") accepted = some rule := hrule
    have hnames := (lastMatch_some hlast).2
    have happlies : rule.applies globs ("task", path) = true := by
      unfold HarnessPermissionRule.applies
      rw [hnames, hstars, hstar]
      rfl
    have hmatch : lastMatch (HarnessPermissionRule.applies globs · ("task", path)) accepted =
        some rule := by
      apply lastMatch_of_relevant hlast happlies
      intro other _ hother
      unfold HarnessPermissionRule.applies at hother
      rw [Bool.and_eq_true] at hother
      exact hother.1
    unfold decision decide?
    rw [hmatch, Option.map_some, hdeny]

end Decisions

/-! ## Child sessions -/

/-- What the initial rules of a child have besides those of its parent. -/
def extraRules (initial parent : HarnessPermissionRules) : HarnessPermissionRules :=
  initial.drop (inheritedRules parent).length

theorem orderedChildRules_ok {parent child : HarnessPermissionRules}
    (h : openCodeOrderedChildRules parent = .ok child) :
    child = parent ++ [taskDenial] ∧ (∃ others, parent = ⟨"*", "*", .deny⟩ :: others) ∧
      ∀ rule ∈ parent, rule.valid = true := by
  unfold openCodeOrderedChildRules at h
  obtain ⟨hvalid, h⟩ := ite_error_ok.mp h
  obtain ⟨hdeny, h⟩ := ite_error_ok.mp h
  rw [Bool.not_eq_true, Bool.not_eq_false'] at hvalid
  unfold validRules at hvalid
  rw [Bool.and_eq_true, Bool.and_eq_true, List.all_eq_true] at hvalid
  rw [not_not] at hdeny
  refine ⟨(Except.ok.inj h).symm, ?_, hvalid.1.2⟩
  cases parent with
  | nil => cases hdeny
  | cons rule others =>
    have hstars := hvalid.2
    change (rule.permission == "*" && rule.pattern == "*") = true at hstars
    rw [Bool.and_eq_true, beq_iff_eq, beq_iff_eq] at hstars
    obtain ⟨permission, pattern, action⟩ := rule
    obtain ⟨rfl, rfl⟩ := hstars
    obtain rfl : action = .deny := Option.some.inj hdeny
    exact ⟨others, rfl⟩

theorem initialChildPolicy_ok {initial : Json} {parent : HarnessPermissionRules}
    (h : assertOpenCodeInitialChildPolicy initial parent = .ok ()) :
    ∃ rules, readRules true initial = some rules ∧ rules.length ≤ 130 ∧
      rules.take (inheritedRules parent).length = inheritedRules parent ∧
      ∀ rule ∈ extraRules rules parent,
        rule.permission ∈ ["task", "todowrite"] ∧ rule.pattern = "*" ∧ rule.action = .deny := by
  unfold assertOpenCodeInitialChildPolicy at h
  obtain ⟨-, -, h⟩ := bind_ok.mp h
  dsimp only at h
  cases hread : (readRules true initial).filter fun rules => decide (rules.length ≤ 130) with
  | none =>
    rw [hread] at h
    cases h
  | some rules =>
    rw [hread] at h
    dsimp only at h
    obtain ⟨hseed, h⟩ := ite_error_ok.mp h
    obtain ⟨hextra, -⟩ := ite_error_ok.mp h
    rw [not_or, not_or] at hextra
    obtain ⟨hrules, hlength⟩ := Option.filter_eq_some_iff.mp hread
    refine ⟨rules, hrules, of_decide_eq_true hlength, not_not.mp hseed, fun rule hrule => ?_⟩
    have hone := hextra.2.2
    rw [Bool.not_eq_true, List.any_eq_false] at hone
    have hchecked := hone rule hrule
    simp only [Bool.or_eq_true, Bool.not_eq_true', bne_iff_ne, not_or, not_not,
      Bool.not_eq_false, List.contains_iff_mem] at hchecked
    exact ⟨hchecked.1.1, hchecked.1.2, hchecked.2⟩

theorem installedChildRules_exists {initial : Json} {parent child : HarnessPermissionRules}
    (hchild : openCodeOrderedChildRules parent = .ok child)
    (hinitial : assertOpenCodeInitialChildPolicy initial parent = .ok ()) :
    ∃ installed, openCodeInstalledChildRules initial parent = .ok installed := by
  obtain ⟨rules, hrules, hlength, hseed, hextra⟩ := initialChildPolicy_ok hinitial
  obtain ⟨-, -, hparent⟩ := orderedChildRules_ok hchild
  have hvalid : ∀ rule ∈ rules, rule.valid = true := by
    intro rule hrule
    rw [← List.take_append_drop (inheritedRules parent).length rules, hseed] at hrule
    obtain hinherited | hown := List.mem_append.mp hrule
    · exact hparent rule (List.mem_filter.mp hinherited).1
    · obtain ⟨hname, hpattern, -⟩ := hextra rule hown
      have hnames : ∀ name ∈ ["task", "todowrite"], ∀ action,
          HarnessPermissionRule.valid ⟨name, "*", action⟩ = true := by
        intro name hname action
        simp only [List.mem_cons, List.not_mem_nil, or_false] at hname
        obtain rfl | rfl := hname
        · exact (by decide : HarnessPermissionRule.valid ⟨"task", "*", .deny⟩ = true)
        · exact (by decide : HarnessPermissionRule.valid ⟨"todowrite", "*", .deny⟩ = true)
      have hone := hnames rule.permission hname rule.action
      rwa [← hpattern] at hone
  have hread : (readRules true initial).filter (fun rules =>
      decide (rules.length ≤ 130) && rules.all HarnessPermissionRule.valid) = some rules := by
    rw [Option.filter_eq_some_iff, Bool.and_eq_true, decide_eq_true_iff, List.all_eq_true]
    exact ⟨hrules, hlength, hvalid⟩
  unfold openCodeInstalledChildRules
  rw [hinitial, hread, hchild]
  exact ⟨_, rfl⟩

section Decisions

variable {Path : Type} {globs : String → Path → Bool} (hstar : ∀ path, globs "*" path = true)

theorem not_applies {rule : HarnessPermissionRule} {name : String} (h : rule.permission ≠ "*")
    (hname : rule.permission ≠ name) (path : Path) : rule.applies globs (name, path) = false := by
  unfold HarnessPermissionRule.applies HarnessPermissionRule.names
  rw [beq_false_of_ne h, beq_false_of_ne hname]
  rfl

include hstar

theorem applies_star {rule : HarnessPermissionRule} {name : String} (hpattern : rule.pattern = "*")
    (hname : rule.names name = true) (path : Path) : rule.applies globs (name, path) = true := by
  unfold HarnessPermissionRule.applies
  rw [hname, hpattern, hstar]
  rfl

theorem child_decision {initial : Json} {parent installed : HarnessPermissionRules}
    (h : openCodeInstalledChildRules initial parent = .ok installed) :
    ∃ rules, readRules true initial = some rules ∧ ∀ name path,
      decision globs installed name path =
        if name = "task" ∨ ∃ rule ∈ extraRules rules parent, rule.permission = name then some .deny
        else decision globs parent name path := by
  unfold openCodeInstalledChildRules at h
  obtain ⟨_, hinitial, h⟩ := bind_ok.mp h
  obtain ⟨inherited, hinherited, h⟩ := bind_ok.mp h
  obtain ⟨child, hchild, h⟩ := bind_ok.mp h
  obtain rfl := Except.ok.inj h
  obtain ⟨rules, hrules, -, -, hextra⟩ := initialChildPolicy_ok hinitial
  obtain ⟨rfl, ⟨others, hparent⟩, -⟩ := orderedChildRules_ok hchild
  have hsame : inherited = rules := by
    unfold PolicyError.orElse at hinherited
    split at hinherited
    · rename_i read hread
      obtain ⟨hread, -⟩ := Option.filter_eq_some_iff.mp hread
      rw [hrules] at hread
      rw [← Except.ok.inj hinherited, Option.some.inj hread]
    · cases hinherited
  subst hsame
  refine ⟨inherited, hrules, fun name path => ?_⟩
  have hnamed : ∀ {rule : HarnessPermissionRule}, rule.permission = name →
      rule.names name = true := by
    intro rule hrule
    unfold HarnessPermissionRule.names
    rw [hrule, beq_self_eq_true, Bool.or_true]
  show decide? _ _ (inherited ++ (parent ++ [taskDenial]) ++ extraRules inherited parent) _ = _
  by_cases hdenied : ∃ rule ∈ extraRules inherited parent, rule.permission = name
  · -- an extra rule comes last
    obtain ⟨rule, hrule, hname⟩ := hdenied
    rw [if_pos (Or.inr ⟨rule, hrule, hname⟩), decide?_append,
      decide?_same (fun other hother => (hextra other hother).2.2) hrule
        (applies_star hstar (hextra rule hrule).2.1 (hnamed hname) path)]
    rfl
  · have hnone : ∀ rule ∈ extraRules inherited parent,
        rule.applies globs (name, path) = false := by
      intro rule hrule
      have hnames := (hextra rule hrule).1
      apply not_applies
      · rintro hstars
        rw [hstars] at hnames
        exact absurd hnames (by decide)
      · exact fun hname => hdenied ⟨rule, hrule, hname⟩
    rw [decide?_append_of_none hnone, ← List.append_assoc]
    by_cases htask : name = "task"
    · have hdenies : ∀ rule ∈ [taskDenial], rule.action = .deny :=
        fun rule hrule => List.mem_singleton.mp hrule ▸ rfl
      have happlies : taskDenial.applies globs (name, path) = true :=
        applies_star hstar rfl (hnamed htask.symm) path
      rw [if_pos (Or.inl htask), decide?_append,
        decide?_same hdenies (List.mem_singleton_self _) happlies]
      rfl
    · have hother : ∀ rule ∈ [taskDenial], rule.applies globs (name, path) = false := by
        intro rule hrule
        rw [List.mem_singleton.mp hrule]
        exact not_applies (by decide) (Ne.symm htask) path
      rw [if_neg (not_or.mpr ⟨htask, hdenied⟩), decide?_append_of_none hother,
        decide?_append_of_some]
      · rfl
      · -- the seed of the parent applies to everything
        have hseed : (⟨"*", "*", .deny⟩ : HarnessPermissionRule) ∈ parent := by
          rw [hparent]
          exact List.mem_cons_self
        exact decide?_isSome hseed (applies_star hstar rfl rfl path)

/-! ## Agents -/

theorem agent_decision {policy : OpenCodePolicy} {agent : OpenCodeAgent}
    (h : agentConfirmed policy agent = true) {name : String} (hname : name ≠ "external_directory")
    (path : Path) :
    decision globs agent.permission name path =
      decision globs (openCodeAgentPermission policy) name path := by
  unfold agentConfirmed at h
  dsimp only at h
  cases hwildcard : lastWildcard agent.permission with
  | none =>
    rw [hwildcard] at h
    cases h
  | some wildcard =>
    rw [hwildcard] at h
    dsimp only at h
    rw [Bool.and_eq_true, beq_iff_eq, List.all_eq_true] at h
    obtain ⟨hexpected, hrest⟩ := h
    have hsplit : agent.permission = agent.permission.take wildcard ++
        (openCodeAgentPermission policy ++ agent.permission.drop
          (wildcard + (openCodeAgentPermission policy).length)) := by
      have hblock := List.take_append_drop (openCodeAgentPermission policy).length
        (agent.permission.drop wildcard)
      rw [hexpected, List.drop_drop] at hblock
      rw [hblock, List.take_append_drop]
    have hnone : ∀ rule ∈ agent.permission.drop
        (wildcard + (openCodeAgentPermission policy).length),
        rule.applies globs (name, path) = false := by
      intro rule hrule
      have hdirectory := eq_of_beq (hrest rule hrule)
      apply not_applies
      · rw [hdirectory]
        decide
      · rw [hdirectory]
        exact Ne.symm hname
    have hseed : (⟨"*", "*", if policy = .fullAccess then .allow else .ask⟩ :
        HarnessPermissionRule) ∈ openCodeAgentPermission policy := List.mem_cons_self
    unfold decision
    rw [hsplit, ← List.append_assoc, decide?_append_of_none hnone]
    exact decide?_append_of_some (decide?_isSome hseed (applies_star hstar rfl rfl path))

theorem agents_decision {value : Json} {policy : OpenCodePolicy}
    (h : assertOpenCodeAgentPermission value policy = .ok ()) :
    ∃ agents, readArray readAgent value = some agents ∧ agents ≠ [] ∧ ∀ agent ∈ agents,
      ∀ name path, name ≠ "external_directory" →
        decision globs agent.permission name path =
          decision globs (openCodeAgentPermission policy) name path := by
  unfold assertOpenCodeAgentPermission at h
  obtain ⟨agents, hagents, h⟩ := bind_ok.mp h
  obtain ⟨hne, h⟩ := ite_error_ok.mp h
  have hread : readArray readAgent value = some agents := by
    unfold PolicyError.orElse at hagents
    split at hagents
    · rename_i read hread
      rw [hread, Except.ok.inj hagents]
    · cases hagents
  refine ⟨agents, hread, hne, fun agent hagent name path hname => ?_⟩
  split at h
  · rename_i hall
    exact agent_decision hstar (List.all_eq_true.mp hall agent hagent) hname path
  · cases h

end Decisions

/-- What a policy is confirmed by, it decides: for the rules of a session, the ordered rules of a root,
the rules that a child is given and the rules of the agents. -/
theorem policy_never_widened {Path : Type} {globs : String → Path → Bool}
    (hstar : ∀ path, globs "*" path = true) :
    (∀ actual policy background,
      assertOpenCodeSessionPolicy actual policy background none = .ok () →
      ∃ rules, readRules true actual = some rules ∧ ∀ name path,
        decision globs rules name path =
          decision globs (policyRules policy background) name path) ∧
    (∀ policy options rules, openCodeOrderedRules policy false options = .ok rules →
      ∀ path, decision globs rules "task" path = some .deny) ∧
    (∀ initial parent child, openCodeOrderedChildRules parent = .ok child →
      assertOpenCodeInitialChildPolicy initial parent = .ok () →
      ∃ rules installed, readRules true initial = some rules ∧
        openCodeInstalledChildRules initial parent = .ok installed ∧ ∀ name path,
          decision globs installed name path =
            if name = "task" ∨ ∃ rule ∈ extraRules rules parent, rule.permission = name then
              some .deny
            else decision globs parent name path) ∧
    (∀ value policy, assertOpenCodeAgentPermission value policy = .ok () →
      ∃ agents, readArray readAgent value = some agents ∧ agents ≠ [] ∧ ∀ agent ∈ agents,
        ∀ name path, name ≠ "external_directory" →
          decision globs agent.permission name path =
            decision globs (openCodeAgentPermission policy) name path) := by
  refine ⟨fun actual policy background h => session_decision hstar h,
    fun policy options rules h path => ordered_task hstar h path, ?_,
    fun value policy h => agents_decision hstar h⟩
  intro initial parent child hchild hinitial
  obtain ⟨installed, hinstalled⟩ := installedChildRules_exists hchild hinitial
  obtain ⟨rules, hrules, hdecision⟩ := child_decision hstar hinstalled
  exact ⟨rules, installed, hrules, hinstalled, hdecision⟩

/-- Patterns that stand for all paths, or for themselves. -/
def exactGlobs (pattern path : String) : Bool := pattern == "*" || pattern == path

def seedRules : HarnessPermissionRules :=
  [⟨"*", "*", .deny⟩, ⟨"read", "src", .allow⟩, ⟨"task", "*", .deny⟩]

def keptAgents : Json := .arr (.ofList [.obj (.ofList [("name", .str "general"),
  ("permission", rulesJson (⟨"bash", "*", .allow⟩ :: openCodeAgentPermission .ask))])])

theorem policy_never_widened_exact :
    (∃ rules, readRules true (rulesJson (policyRules .ask false)) = some rules ∧ ∀ name path,
      decision exactGlobs rules name path = decision exactGlobs (policyRules .ask false) name path) ∧
    decision exactGlobs seedRules "task" "src" = some .deny ∧
    (∃ rules installed, readRules true (rulesJson (inheritedRules seedRules)) = some rules ∧
      openCodeInstalledChildRules (rulesJson (inheritedRules seedRules)) seedRules = .ok installed ∧
      ∀ name path, decision exactGlobs installed name path =
        if name = "task" ∨ ∃ rule ∈ extraRules rules seedRules, rule.permission = name then
          some .deny
        else decision exactGlobs seedRules name path) ∧
    ∃ agents, readArray readAgent keptAgents = some agents ∧ agents ≠ [] ∧ ∀ agent ∈ agents,
      ∀ name path, name ≠ "external_directory" →
        decision exactGlobs agent.permission name path =
          decision exactGlobs (openCodeAgentPermission .ask) name path := by
  obtain ⟨hsession, hordered, hchild, hagents⟩ :=
    @policy_never_widened String exactGlobs fun _ => rfl
  exact ⟨hsession _ .ask false (by decide +kernel),
    hordered .ask (.permissionRules seedRules) seedRules (by decide +kernel) "src",
    hchild _ seedRules (seedRules ++ [taskDenial]) (by decide +kernel) (by decide +kernel),
    hagents _ .ask (by decide +kernel)⟩

end HarnessControl.OpenCode
