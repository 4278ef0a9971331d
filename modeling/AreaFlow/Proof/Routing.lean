import AreaFlow.Construction.Api.Routes

namespace AreaFlow.Api

open Go

variable {r : Request} {target : ProjectRoute} {method : Method} {projectKey key path capability : GoString}
  {tail : List GoString}

/-- This is the path of the project subtree. -/
abbrev projectsPath : GoString := bytes "/api/projects/"

theorem literal_not_project : ∀ entry ∈ mux.literal, entry.2 ≠ .project := by decide

theorem subtree_project : ∀ entry ∈ mux.subtree, entry.2 = .project → entry.1 = [bytes "api", bytes "projects"] := by
  decide

/-- A request that reaches the project handler has a path below the project subtree. -/
theorem routeProject_path (routed : routeProject r = some target) :
    ∃ rest, r.url.path = projectsPath ++ rest ∧ projectRoute r.method r.url.path = target := by
  unfold routeProject at routed
  split at routed
  · rename_i dispatched
    rcases ServeMux.dispatch_route dispatched with literal | subtree
    · exact absurd rfl (literal_not_project _ (ServeMux.findLiteral_mem literal))
    · obtain ⟨stem, next, more, member, segments⟩ := ServeMux.findSubtree_mem subtree
      have shape := subtree_project _ member rfl
      simp only at shape
      subst shape
      obtain ⟨rest, path⟩ := muxSegments_stem r.url _ next more segments
      exact ⟨rest, path, Option.some.inj routed⟩
  · cases routed

/-- A section is chosen with the key of its project. -/
theorem sectionRoute_key {name : GoString} (keyed : (sectionRoute method projectKey name tail).projectKey = some key) :
    key = projectKey := by
  unfold sectionRoute at keyed
  repeat' split at keyed
  all_goals simp_all [ProjectRoute.projectKey]

/-- A section is neither the role binding handler nor the version handler. -/
theorem sectionRoute_simple {name : GoString} :
    (∀ key, sectionRoute method projectKey name tail ≠ .roleBindings key) ∧
      ∀ key rest, sectionRoute method projectKey name tail ≠ .workflowVersions key rest := by
  unfold sectionRoute
  constructor
  all_goals
    intros
    repeat' split
    all_goals simp

/-- Every handler gets the first part of the path as its project key. -/
theorem partsRoute_key {rest : List GoString} (keyed : (partsRoute method projectKey rest).projectKey = some key) :
    key = projectKey := by
  unfold partsRoute at keyed
  repeat' split at keyed
  all_goals first | exact sectionRoute_key keyed | simp_all [ProjectRoute.projectKey]

theorem partsRoute_roleBindings {rest : List GoString}
    (routed : partsRoute method projectKey rest = .roleBindings key) :
    rest = [bytes "role-bindings"] := by
  unfold partsRoute at routed
  repeat' split at routed
  all_goals first | exact absurd routed (sectionRoute_simple.1 key) | simp_all

theorem partsRoute_workflowVersions {rest : List GoString}
    (routed : partsRoute method projectKey rest = .workflowVersions key tail) :
    rest = bytes "workflow-versions" :: tail := by
  unfold partsRoute at routed
  repeat' split at routed
  all_goals first | exact absurd routed (sectionRoute_simple.2 key tail) | simp_all

/-- A request that reaches a handler has a non-empty first part, which is the key of the handler. -/
theorem projectRoute_parts (routed : projectRoute method path = target) (keyed : target.projectKey = some key) :
    ∃ rest, projectParts path = key :: rest ∧ key ≠ [] ∧ partsRoute method key rest = target := by
  unfold projectRoute at routed
  split at routed
  · subst routed
    cases keyed
  · rename_i first rest parts
    split at routed
    · subst routed
      cases keyed
    · rename_i fits
      rw [not_or] at fits
      have same := partsRoute_key (routed ▸ keyed)
      subst same
      exact ⟨rest, parts, fits.2, routed⟩

/-- The path below the project subtree neither begins nor ends with a slash. -/
def cleanProjectPath (path : GoString) : Prop :=
  (trimPrefix path projectsPath).head? ≠ some slash ∧ (trimPrefix path projectsPath).getLast? ≠ some slash

/-- A clean project path is the join of its parts. -/
theorem cleanProjectPath_join (clean : cleanProjectPath path) :
    [slash].intercalate (projectParts path) = trimPrefix path projectsPath := by
  rw [projectParts, split_join, trimByte_eq_self clean.1 clean.2]

/-- The parts of an empty path have an empty first part. -/
theorem rest_ne_nil (parts : projectParts path = key :: tail) (keyed : key ≠ []) :
    trimPrefix path projectsPath ≠ [] := by
  intro empty
  rw [projectParts, show trimPrefix path (bytes "/api/projects/") = [] from empty] at parts
  have first : key = [] := by
    have shape : split slash (trimByte slash []) = [[]] := by decide
    rw [shape] at parts
    exact (List.cons.inj parts).1.symm
  exact keyed first

section Agreement

variable {rest : GoString}

/-- Below the project subtree the checked project is the text up to the first slash. -/
theorem requestProjectKey_below (path : r.url.path = projectsPath ++ rest) (nonempty : rest ≠ []) :
    requestProjectKey r = cutBefore slash rest := by
  unfold requestProjectKey
  rw [path, if_pos ⟨hasPrefix_append _ _, by rwa [trimPrefix_append]⟩, trimPrefix_append]

/-- Without a leading slash the checked project is the key of the handler. -/
theorem requestProjectKey_parts (path : r.url.path = projectsPath ++ rest) (first : rest.head? ≠ some slash)
    (parts : projectParts r.url.path = key :: tail) (keyed : key ≠ []) : requestProjectKey r = key := by
  have nonempty := rest_ne_nil parts keyed
  rw [path, trimPrefix_append] at nonempty
  rw [projectParts, path, show trimPrefix _ (bytes "/api/projects/") = rest from trimPrefix_append _ _] at parts
  have keyClean : slash ∉ key := split_clean slash _ key (by rw [parts]; exact List.mem_cons_self)
  have joined := split_join slash (trimByte slash rest)
  rw [parts] at joined
  rw [requestProjectKey_below path nonempty, ← cutBefore_trimByte first, ← joined, cutBefore_join tail keyClean]

/-- On a clean path of several parts the path ends with its last part. -/
theorem clean_hasSuffix (path : r.url.path = projectsPath ++ rest) (clean : cleanProjectPath r.url.path)
    {middle : List GoString} {last : GoString} (parts : projectParts r.url.path = key :: middle ++ [last]) :
    hasSuffix r.url.path (slash :: last) = true := by
  have joined := cleanProjectPath_join clean
  rw [parts, path, trimPrefix_append] at joined
  rw [hasSuffix_iff, path, ← joined]
  exact (join_suffix slash key last middle).trans (List.suffix_append _ _)

/-- A checked project that is the key of the handler rules out a leading slash. -/
theorem head_of_requestProjectKey (path : r.url.path = projectsPath ++ rest)
    (parts : projectParts r.url.path = key :: tail) (keyed : key ≠ []) (same : requestProjectKey r = key) :
    rest.head? ≠ some slash := by
  have nonempty := rest_ne_nil parts keyed
  rw [path, trimPrefix_append] at nonempty
  rw [requestProjectKey_below path nonempty] at same
  intro first
  obtain ⟨after, rfl⟩ := List.head?_eq_some_iff.mp first
  apply keyed
  rw [← same]
  simp [cutBefore]

/-- A path that ends with a text rules out a trailing slash. -/
theorem last_of_hasSuffix {suffix : GoString} {b : UInt8} (path : r.url.path = projectsPath ++ rest)
    (nonempty : rest ≠ []) (suffixed : hasSuffix r.url.path suffix = true) (last : suffix.getLast? = some b)
    (different : b ≠ slash) : rest.getLast? ≠ some slash := by
  obtain ⟨before, shape⟩ := hasSuffix_iff.mp suffixed
  have lastPath : r.url.path.getLast? = some b := by
    rw [← shape, List.getLast?_append, last]
    rfl
  rw [path, List.getLast?_append_of_ne_nil _ nonempty] at lastPath
  rw [lastPath]
  intro slashed
  exact different (Option.some.inj slashed)

end Agreement

/-- The middleware checks the project of the handler, or an empty key when the path has a leading slash. -/
theorem requestProjectKey_routed (routed : routeProject r = some target) (keyed : target.projectKey = some key) :
    requestProjectKey r = key ∨ requestProjectKey r = [] := by
  obtain ⟨rest, path, handler⟩ := routeProject_path routed
  obtain ⟨tail, parts, named, _⟩ := projectRoute_parts handler keyed
  by_cases first : rest.head? = some slash
  · obtain ⟨after, rfl⟩ := List.head?_eq_some_iff.mp first
    right
    rw [requestProjectKey_below path (by simp)]
    simp [cutBefore]
  · exact Or.inl (requestProjectKey_parts path first parts named)

theorem requestCapability_roleManage :
    requestCapability r = bytes "auth.role.manage" ↔ hasSuffix r.url.path (bytes "/role-bindings") = true := by
  unfold requestCapability
  constructor
  · intro chosen
    by_contra other
    rw [if_neg other] at chosen
    repeat' split at chosen
    all_goals exact absurd chosen (by decide)
  · intro suffixed
    rw [if_pos suffixed]

theorem requestCapability_approval (chosen : requestCapability r = bytes "workflow.approval.record") :
    hasSuffix r.url.path (bytes "/approvals") = true := by
  unfold requestCapability at chosen
  repeat' split at chosen
  all_goals try exact absurd chosen (by decide)
  rename_i posted
  exact posted.2

/-- A posted project path that ends with the approval section needs the approval capability. -/
theorem requestCapability_posted_approval {rest : GoString} (path : r.url.path = projectsPath ++ rest)
    (posted : r.method = .post) (suffixed : hasSuffix r.url.path (bytes "/approvals") = true) :
    requestCapability r = bytes "workflow.approval.record" := by
  have notRole : ¬ hasSuffix r.url.path (bytes "/role-bindings") = true := by
    intro other
    have nested := List.suffix_of_suffix_length_le (hasSuffix_iff.mp suffixed) (hasSuffix_iff.mp other) (by decide)
    exact absurd nested (by decide)
  have elsewhere (target : GoString) (outside : ¬ projectsPath <+: target) : r.url.path ≠ target := by
    intro same
    exact outside (same ▸ path ▸ List.prefix_append _ _)
  unfold requestCapability
  rw [if_neg notRole, if_neg (elsewhere _ (by decide)), if_neg (elsewhere _ (by decide)), posted,
    if_neg (by simp), if_pos ⟨rfl, suffixed⟩]

/-- The version handler gives the posted request to the approval handler exactly for this tail. -/
theorem versionRoute_approvals {rest : List GoString} {label : GoString} :
    versionRoute method rest = .approvals label ↔ rest = [label, bytes "approvals"] := by
  constructor
  · intro routed
    unfold versionRoute at routed
    split at routed
    · cases routed
    · split at routed <;> cases routed
    · rename_i first name
      have table : ∀ entry ∈ versionSections, ∀ other, entry.2 first = .approvals other →
          entry.1 = bytes "approvals" ∧ first = other := by
        intro entry member other
        simp only [versionSections, List.mem_cons, List.not_mem_nil, or_false] at member
        rcases member with rfl | rfl | rfl | rfl | rfl | rfl | rfl | rfl | rfl | rfl | rfl | rfl | rfl <;> simp
      split at routed
      · rename_i target found
        have named := List.find?_some found
        rw [beq_iff_eq] at named
        obtain ⟨approvals, same⟩ := table _ (List.mem_of_find?_eq_some found) label routed
        rw [← named, ← same, ← approvals]
      · cases routed
    · cases routed
  · rintro rfl
    rfl

/-- These requests reach the role binding handler, or post to the approval handler. -/
def Guarded (r : Request) (projectKey capability : GoString) : Prop :=
  (routeProject r = some (.roleBindings projectKey) ∧ capability = bytes "auth.role.manage") ∨
    (r.method = .post ∧ capability = bytes "workflow.approval.record" ∧
      ∃ rest label, routeProject r = some (.workflowVersions projectKey rest) ∧
        versionRoute r.method rest = .approvals label)

/-- The middleware checks the capability that the handler needs and the project that is the handler's argument. The
service trims this key later. -/
def RouterAgrees (r : Request) : Prop :=
  ∀ projectKey capability, Guarded r projectKey capability →
    requestCapability r = capability ∧ requestProjectKey r = projectKey

/-- A guarded request has the shape that its handler asks for. -/
theorem Guarded.shape (guarded : Guarded r projectKey capability) :
    ∃ rest middle last, r.url.path = projectsPath ++ rest ∧ projectKey ≠ [] ∧
      projectParts r.url.path = projectKey :: middle ++ [last] ∧
      ((last = bytes "role-bindings" ∧ capability = bytes "auth.role.manage") ∨
        (last = bytes "approvals" ∧ capability = bytes "workflow.approval.record" ∧ r.method = .post)) := by
  rcases guarded with ⟨routed, named⟩ | ⟨posted, named, tail, label, routed, approvals⟩
  · obtain ⟨rest, path, chosen⟩ := routeProject_path routed
    obtain ⟨others, parts, keyed, below⟩ := projectRoute_parts chosen rfl
    rw [partsRoute_roleBindings below] at parts
    exact ⟨rest, [], _, path, keyed, parts, Or.inl ⟨rfl, named⟩⟩
  · obtain ⟨rest, path, chosen⟩ := routeProject_path routed
    obtain ⟨others, parts, keyed, below⟩ := projectRoute_parts chosen rfl
    rw [partsRoute_workflowVersions below, versionRoute_approvals.mp approvals] at parts
    exact ⟨rest, [bytes "workflow-versions", label], _, path, keyed, parts, Or.inr ⟨rfl, named, posted⟩⟩

/-- On a clean project path the middleware agrees with the router. -/
theorem agrees_of_clean (guarded : Guarded r projectKey capability) (clean : cleanProjectPath r.url.path) :
    requestCapability r = capability ∧ requestProjectKey r = projectKey := by
  obtain ⟨rest, middle, last, path, keyed, parts, handler⟩ := guarded.shape
  have first : rest.head? ≠ some slash := by
    have front := clean.1
    rwa [path, trimPrefix_append] at front
  refine ⟨?_, requestProjectKey_parts path first parts keyed⟩
  have suffixed := clean_hasSuffix path clean parts
  rcases handler with ⟨rfl, rfl⟩ | ⟨rfl, rfl, posted⟩
  · exact requestCapability_roleManage.mpr suffixed
  · exact requestCapability_posted_approval path posted suffixed

/-- If the middleware agrees with the router, then the project path is clean. -/
theorem clean_of_agrees (guarded : Guarded r projectKey capability)
    (agreed : requestCapability r = capability ∧ requestProjectKey r = projectKey) :
    cleanProjectPath r.url.path := by
  obtain ⟨rest, middle, last, path, keyed, parts, handler⟩ := guarded.shape
  have nonempty := rest_ne_nil parts keyed
  rw [path, trimPrefix_append] at nonempty
  have first := head_of_requestProjectKey path parts keyed agreed.2
  have final : rest.getLast? ≠ some slash := by
    rcases handler with ⟨_, rfl⟩ | ⟨_, rfl, _⟩
    · exact last_of_hasSuffix path nonempty (requestCapability_roleManage.mp agreed.1) rfl (by decide)
    · exact last_of_hasSuffix path nonempty (requestCapability_approval agreed.1) rfl (by decide)
  unfold cleanProjectPath
  rw [path, trimPrefix_append]
  exact ⟨first, final⟩

/-- The middleware and the router agree on a request exactly when a guarded request has a clean project path. -/
theorem routerAgrees_iff (r : Request) :
    RouterAgrees (apiVersionAlias r) ↔
      ((∃ projectKey capability, Guarded (apiVersionAlias r) projectKey capability) →
        cleanProjectPath (apiVersionAlias r).url.path) := by
  constructor
  · rintro agrees ⟨projectKey, capability, guarded⟩
    exact clean_of_agrees guarded (agrees projectKey capability guarded)
  · intro clean projectKey capability guarded
    exact agrees_of_clean guarded (clean ⟨projectKey, capability, guarded⟩)

/-- This request reads the role bindings of the project `a` with a slash at the end of its path. -/
def trailingSlashRequest : Request where
  method := .get
  url :=
    { path := bytes "/api/projects/a/role-bindings/", rawPath := [], query := []
      rooted := Or.inr (by decide), rawRooted := rooted_nil }

/-- A trailing slash reaches the role binding handler with the capability to read only. -/
theorem trailingSlash_disagrees :
    apiVersionAlias trailingSlashRequest = trailingSlashRequest ∧
      routeProject trailingSlashRequest = some (.roleBindings (bytes "a")) ∧
      requestCapability trailingSlashRequest = bytes "read" ∧ ¬ RouterAgrees trailingSlashRequest := by
  have routed : routeProject trailingSlashRequest = some (.roleBindings (bytes "a")) := by decide
  have chosen : requestCapability trailingSlashRequest = bytes "read" := by decide
  refine ⟨rfl, routed, chosen, fun agrees => ?_⟩
  have agreed := (agrees (bytes "a") (bytes "auth.role.manage") (Or.inl ⟨routed, rfl⟩)).1
  rw [chosen] at agreed
  exact absurd agreed (by decide)

end AreaFlow.Api
