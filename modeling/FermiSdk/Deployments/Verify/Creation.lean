import FermiSdk.AccountClient.Verify.Scans
import FermiSdk.Deployments
import FermiSdk.Gateway.Verify.Routes
import FermiSdk.Trading.Verify.Wire

/-!
# Settings of a known group are assertions

A configuration may name a deployment, a cluster and a program beside its group. Where the group is
that of a known deployment, these settings cannot redirect a context: it is created with them
exactly if each agrees with the deployment, and then it is the context that is created without them
(`created_context`). The account of a context was read under the program of its group.
-/

namespace FermiSdk

open FermiSdk.Lib
open FermiSdk.Fees (KeyLike)
open FermiSdk.Gateway (requireApiKey UUID_RE)

/-! ## The table -/

/-- The keys of a deployment are written as keys are. -/
structure FermiV1Deployment.WellFormed (deployment : FermiV1Deployment) : Prop where
  named : deployment.name ≠ ""
  group : ∃ key : PublicKey, key.toBase58 = deployment.group
  programId : ∃ key : PublicKey, key.toBase58 = deployment.programId

theorem group_recorded : TriggerOrders.Recorded.group.toBase58 = FERMI_R9_MAINNET.group := by
  decide +kernel

theorem programId_recorded :
    RecordedCancel.programId.toBase58 = FERMI_R9_MAINNET.programId := by
  decide +kernel

/-- Every entry stands under its own name. -/
theorem registered_of_mem {entry : String × FermiV1Deployment}
    (h : entry ∈ FERMI_V1_DEPLOYMENTS) : entry.1 = entry.2.name ∧ entry.2.WellFormed := by
  cases List.mem_singleton.1 h
  exact ⟨rfl, by decide, ⟨_, group_recorded⟩, ⟨_, programId_recorded⟩⟩

theorem nodup_names : (FERMI_V1_DEPLOYMENTS.map Prod.fst).Nodup := List.nodup_singleton _

theorem nodup_groups : ((FERMI_V1_DEPLOYMENTS.map Prod.snd).map (·.group)).Nodup :=
  List.nodup_singleton _

section

variable {name group : String} {deployment : FermiV1Deployment}

theorem findFermiV1DeploymentByGroup_eq_some :
    findFermiV1DeploymentByGroup group = some deployment ↔
      deployment ∈ FERMI_V1_DEPLOYMENTS.map Prod.snd ∧ deployment.group = group :=
  find?_eq_some_iff_mem nodup_groups

theorem find_of_lookup (h : FERMI_V1_DEPLOYMENTS.lookup name = some deployment) :
    findFermiV1DeploymentByGroup deployment.group = some deployment := by
  have hmem := (lookup_eq_some_iff_mem nodup_names).1 h
  exact findFermiV1DeploymentByGroup_eq_some.2 ⟨List.mem_map_of_mem hmem, rfl⟩

/-- The deployment of a group is an entry, under its name alone. -/
theorem lookup_iff_of_find (h : findFermiV1DeploymentByGroup group = some deployment) :
    FERMI_V1_DEPLOYMENTS.lookup name = some deployment ↔ name = deployment.name := by
  obtain ⟨hmem, -⟩ := findFermiV1DeploymentByGroup_eq_some.1 h
  obtain ⟨entry, hentry, rfl⟩ := List.mem_map.1 hmem
  rw [lookup_eq_some_iff_mem nodup_names]
  constructor
  · intro hlisted
    exact (registered_of_mem hlisted).1
  · rintro rfl
    rw [← (registered_of_mem hentry).1]
    exact hentry

theorem wellFormed_of_find (h : findFermiV1DeploymentByGroup group = some deployment) :
    deployment.WellFormed := by
  obtain ⟨hmem, -⟩ := findFermiV1DeploymentByGroup_eq_some.1 h
  obtain ⟨entry, hentry, rfl⟩ := List.mem_map.1 hmem
  exact (registered_of_mem hentry).2

theorem PublicKey.toBase58_inj {key key' : PublicKey} (h : key.toBase58 = key'.toBase58) :
    key = key' := by
  have hread := congrArg PublicKey.ofBase58 h
  rwa [PublicKey.ofBase58_toBase58, PublicKey.ofBase58_toBase58, Option.some_inj] at hread

/-- A text that is written as a key is read as the key. -/
theorem newPublicKey_eq_ok {key : PublicKey} {text : String}
    (hwritten : ∃ key : PublicKey, key.toBase58 = text) :
    newPublicKey text = .ok key ↔ key.toBase58 = text := by
  obtain ⟨written, rfl⟩ := hwritten
  have hread : newPublicKey written.toBase58 = .ok written := by
    unfold newPublicKey KeyLike.toPublicKey
    dsimp only
    rw [PublicKey.ofBase58_toBase58]
    rfl
  rw [hread, Except.ok.injEq]
  constructor
  · rintro rfl
    rfl
  · intro h
    exact (PublicKey.toBase58_inj h).symm

/-- A named deployment is an entry, or it is refused for every group. -/
theorem requireFermiV1Deployment_eq_ok {registered : Registered} (hname : name ≠ "")
    (h : requireFermiV1Deployment name = .ok registered) :
    registered = .inherited ∨
      ∃ deployment, registered = .deployment deployment ∧
        FERMI_V1_DEPLOYMENTS.lookup name = some deployment := by
  unfold requireFermiV1Deployment getFermiV1Deployment at h
  rw [Option.filter_some, if_pos (decide_eq_true hname)] at h
  dsimp only at h
  cases hlookup : FERMI_V1_DEPLOYMENTS.lookup name with
  | some deployment =>
    rw [hlookup] at h
    cases h
    exact .inr ⟨deployment, rfl, rfl⟩
  | none =>
    rw [hlookup] at h
    dsimp only at h
    split at h
    · next heq =>
      split at heq
      · cases heq
        cases h
        exact .inl rfl
      · cases heq
    · cases h

theorem requireFermiV1Deployment_of_lookup (hname : name ≠ "")
    (h : FERMI_V1_DEPLOYMENTS.lookup name = some deployment) :
    requireFermiV1Deployment name = .ok (.deployment deployment) := by
  unfold requireFermiV1Deployment getFermiV1Deployment
  rw [Option.filter_some, if_pos (decide_eq_true hname)]
  dsimp only
  rw [h]
  rfl

end

/-! ## Resolution -/

/-- The deployment that is named, if one is, is an entry for the group. -/
def NamesGroup (name : Option String) (groupPk : PublicKey) : Prop :=
  ∀ n, name.filter (· ≠ "") = some n →
    ∃ deployment, FERMI_V1_DEPLOYMENTS.lookup n = some deployment ∧
      deployment.group = groupPk.toBase58

section

variable {groupPk : PublicKey} {name : Option String} {deployment : Option FermiV1Deployment}

theorem resolveDeploymentForGroup_eq_ok :
    resolveDeploymentForGroup (.key groupPk) name = .ok deployment ↔
      NamesGroup name groupPk ∧ deployment = findFermiV1DeploymentByGroup groupPk.toBase58 := by
  unfold resolveDeploymentForGroup NamesGroup
  simp only [KeyLike.toPublicKey, pure_bind]
  cases hname : name.filter (· ≠ "") with
  | none =>
    refine Throws.pure_eq_ok.trans (eq_comm.trans (and_iff_right ?_).symm)
    intro n hn
    cases hn
  | some n =>
    have hne : n ≠ "" := of_decide_eq_true (Option.filter_eq_some_iff.1 hname).2
    simp only [Option.some_inj, forall_eq']
    constructor
    · intro h
      obtain ⟨registered, hregistered, h⟩ := Throws.bind_eq_ok.1 h
      rcases requireFermiV1Deployment_eq_ok hne hregistered with rfl | ⟨d, rfl, hlookup⟩
      · cases h
      · simp only [Throws.bind_eq_ok, Throws.throwIf_eq_ok, exists_const, not_not,
          Throws.pure_eq_ok] at h
        obtain ⟨hgroup, rfl⟩ := h
        refine ⟨⟨d, hlookup, hgroup⟩, ?_⟩
        rw [← hgroup, find_of_lookup hlookup]
    · rintro ⟨⟨d, hlookup, hgroup⟩, rfl⟩
      rw [requireFermiV1Deployment_of_lookup hne hlookup, Throws.ok_bind]
      simp only [Throws.bind_eq_ok, Throws.throwIf_eq_ok, exists_const, not_not,
        Throws.pure_eq_ok]
      refine ⟨hgroup, ?_⟩
      rw [← hgroup, find_of_lookup hlookup]

theorem resolveProgramIdForGroup_eq_ok {cluster : Cluster} {setting : Option KeyLike}
    {programId : PublicKey} (h : resolveDeploymentForGroup (.key groupPk) name = .ok deployment) :
    resolveProgramIdForGroup cluster (.key groupPk) setting name = .ok programId ↔
      (∀ d, deployment = some d → d.cluster = cluster ∧ d.programId = programId.toBase58) ∧
      (∀ value, setting = some value → value.toPublicKey = .ok programId) ∧
      (setting = none → deployment.isSome) := by
  have hdeployment := (resolveDeploymentForGroup_eq_ok.1 h).2
  unfold resolveProgramIdForGroup
  rw [h, Throws.ok_bind]
  cases deployment with
  | none =>
    simp only [checkCluster, pure_bind, reduceCtorEq, false_imp_iff, implies_true, true_and,
      Option.isSome_none, Bool.false_eq_true]
    cases setting with
    | none => exact iff_of_false (fun h => by cases h) fun h => h.2 rfl
    | some value =>
      simp only [checkProgram, pure_bind, Throws.bind_eq_ok, Throws.pure_eq_ok, exists_eq_right,
        Option.some_inj, forall_eq', reduceCtorEq, false_imp_iff, and_true]
  | some d =>
    have hwritten := (wellFormed_of_find hdeployment.symm).programId
    simp only [checkCluster, Throws.bind_eq_ok, Throws.throwIf_eq_ok, exists_const, not_not,
      Option.some_inj, forall_eq', Option.isSome_some, implies_true, and_true]
    cases setting with
    | none =>
      simp only [newPublicKey_eq_ok hwritten, reduceCtorEq, false_imp_iff, implies_true, and_true]
      exact and_congr_right fun _ => eq_comm
    | some value =>
      simp only [checkProgram, Throws.bind_eq_ok, Throws.throwIf_eq_ok, Throws.pure_eq_ok,
        exists_const, not_not, Option.some_inj, forall_eq']
      constructor
      · rintro ⟨hcluster, _, hvalue, hprogram, rfl⟩
        exact ⟨⟨hcluster, hprogram⟩, hvalue⟩
      · rintro ⟨⟨hcluster, hprogram⟩, hvalue⟩
        exact ⟨hcluster, programId, hvalue, hprogram, rfl⟩

end

section

variable {config : FermiV1ContextConfig} {groupPk : PublicKey} {resolved : Resolved}

/-- The group that is set, or else the deployment that is named, is meant. -/
structure FermiV1ContextConfig.SetsGroup (config : FermiV1ContextConfig) (groupPk : PublicKey) :
    Prop where
  setting : ∀ value, config.groupPk.filter KeyLike.truthy = some value →
    value.toPublicKey = .ok groupPk
  named : config.groupPk.filter KeyLike.truthy = none → (config.deployment.filter (· ≠ "")).isSome

/-- A deployment is named if the configuration has a name, and then it is one of the group. -/
theorem exists_namedDeployment (hnames : NamesGroup config.deployment groupPk) :
    ∃ registered, config.namedDeployment = .ok registered ∧
      registered.isSome = (config.deployment.filter (· ≠ "")).isSome ∧
      ∀ r, registered = some r →
        ∃ d, r = .deployment d ∧ d.group = groupPk.toBase58 ∧ d.WellFormed := by
  unfold FermiV1ContextConfig.namedDeployment
  cases hname : config.deployment.filter (· ≠ "") with
  | none => exact ⟨none, rfl, rfl, fun r hr => by cases hr⟩
  | some n =>
    have hne : n ≠ "" := of_decide_eq_true (Option.filter_eq_some_iff.1 hname).2
    obtain ⟨d, hlookup, hgroup⟩ := hnames n hname
    refine ⟨some (.deployment d), ?_, rfl, fun r hr => ⟨d, (Option.some.inj hr).symm, hgroup, ?_⟩⟩
    · dsimp only
      rw [requireFermiV1Deployment_of_lookup hne hlookup]
      rfl
    · exact wellFormed_of_find (find_of_lookup hlookup)

theorem configuredGroup_eq_ok (hnames : NamesGroup config.deployment groupPk) :
    (config.namedDeployment >>= config.configuredGroup) = .ok groupPk ↔
      config.SetsGroup groupPk := by
  obtain ⟨registered, hregistered, hisSome, hentry⟩ := exists_namedDeployment hnames
  rw [hregistered, Throws.ok_bind]
  unfold FermiV1ContextConfig.configuredGroup
  cases hgroup : config.groupPk.filter KeyLike.truthy with
  | some value =>
    constructor
    · intro h
      refine ⟨fun value' hvalue' => ?_, fun hnone => ?_⟩
      · rw [hgroup] at hvalue'
        cases hvalue'
        exact h
      · rw [hgroup] at hnone
        cases hnone
    · intro h
      exact h.setting value hgroup
  | none =>
    cases registered with
    | none =>
      refine iff_of_false (fun h => by cases h) fun h => ?_
      have hsome := h.named hgroup
      rw [← hisSome] at hsome
      cases hsome
    | some r =>
      obtain ⟨d, rfl, hd, hwellFormed⟩ := hentry r rfl
      refine iff_of_true ((newPublicKey_eq_ok hwellFormed.group).2 hd.symm) ⟨?_, ?_⟩
      · intro value hvalue
        rw [hgroup] at hvalue
        cases hvalue
      · intro _
        rw [← hisSome]
        rfl

/-- What a configuration is resolved to, and when. -/
theorem resolve_eq_ok : config.resolve = .ok resolved ↔
    NamesGroup config.deployment resolved.groupPk ∧ config.SetsGroup resolved.groupPk ∧
    resolved.deployment = findFermiV1DeploymentByGroup resolved.groupPk.toBase58 ∧
    resolved.cluster =
      config.cluster.getD ((resolved.deployment.map (·.cluster)).getD .devnet) ∧
    (∀ d, resolved.deployment = some d →
      d.cluster = resolved.cluster ∧ d.programId = resolved.programId.toBase58) ∧
    (∀ value, config.programId = some value → value.toPublicKey = .ok resolved.programId) ∧
    (config.programId = none → resolved.deployment.isSome) := by
  unfold FermiV1ContextConfig.resolve
  rw [← bind_assoc]
  simp only [Throws.bind_eq_ok, Throws.pure_eq_ok]
  constructor
  · rintro ⟨groupPk, ⟨registered, hregistered, hgroup⟩, deployment, hdeployment, programId,
      hprogram, rfl⟩
    obtain ⟨hnames, hfound⟩ := resolveDeploymentForGroup_eq_ok.1 hdeployment
    have hconfigured : (config.namedDeployment >>= config.configuredGroup) = .ok groupPk :=
      Throws.bind_eq_ok.2 ⟨registered, hregistered, hgroup⟩
    exact ⟨hnames, (configuredGroup_eq_ok hnames).1 hconfigured, hfound, rfl,
      (resolveProgramIdForGroup_eq_ok hdeployment).1 hprogram⟩
  · rintro ⟨hnames, hsets, hfound, hcluster, hprogram⟩
    obtain ⟨registered, hregistered, hgroup⟩ :=
      Throws.bind_eq_ok.1 ((configuredGroup_eq_ok hnames).2 hsets)
    have hdeployment := resolveDeploymentForGroup_eq_ok.2 ⟨hnames, hfound⟩
    refine ⟨resolved.groupPk, ⟨registered, hregistered, hgroup⟩, resolved.deployment, hdeployment,
      resolved.programId, ?_, ?_⟩
    · rw [← hcluster]
      exact (resolveProgramIdForGroup_eq_ok hdeployment).2 hprogram
    · rw [← hcluster]

end

/-! ## Creation -/

/-- The configuration with its group, and without a deployment, a cluster and a program. -/
def FermiV1ContextConfig.withGroupOnly (config : FermiV1ContextConfig) (groupPk : PublicKey) :
    FermiV1ContextConfig :=
  { config with
    groupPk := some (.key groupPk)
    deployment := none
    cluster := none
    programId := none }

/-- What is set agrees with a deployment of the group. -/
structure FermiV1ContextConfig.Agrees (config : FermiV1ContextConfig) (groupPk : PublicKey)
    (known : FermiV1Deployment) : Prop where
  groupPk : config.SetsGroup groupPk
  deployment : ∀ name, config.deployment.filter (· ≠ "") = some name → name = known.name
  cluster : ∀ cluster, config.cluster = some cluster → cluster = known.cluster
  programId : ∀ value, config.programId = some value →
    ∃ programId, value.toPublicKey = .ok programId ∧ programId.toBase58 = known.programId

/-- The account of a context was read at the key that was set, under the program of the context. -/
def CreatedContext.ReadsAccount (context : CreatedContext) (env : Environment)
    (config : FermiV1ContextConfig) : Prop :=
  config.fermiAccountPk.toPublicKey = .ok context.config.fermiAccountPk ∧
  ∃ node, env.connect context.clusterUrl config.commitment = .ok node ∧
    FermiV1AccountClient.getFermiAccount ⟨node.connection, context.programId, env.coder⟩
      context.config.fermiAccountPk = .ok context.account

/-- What a context of a configuration was checked for. -/
structure CreatedContext.Sound (context : CreatedContext) (env : Environment)
    (config : FermiV1ContextConfig) : Prop where
  apiKey : UUID_RE context.apiKey = true
  account : context.ReadsAccount env config
  group : context.account.group = context.groupPk
  deployment : context.deployment = findFermiV1DeploymentByGroup context.groupPk.toBase58
  known : ∀ d, context.deployment = some d →
    context.cluster = d.cluster ∧ context.programId.toBase58 = d.programId
  unknown : context.deployment = none → config.deployment.filter (· ≠ "") = none ∧
    ∃ value, config.programId = some value ∧ value.toPublicKey = .ok context.programId

section

variable {env : Environment} {config : FermiV1ContextConfig} {groupPk programId : PublicKey} {deployment : FermiV1Deployment} {resolved : Resolved}
  {context : CreatedContext}

theorem agrees_withGroupOnly : (config.withGroupOnly groupPk).Agrees groupPk deployment where
  groupPk := {
    setting := by
      intro value hvalue
      cases hvalue
      rfl
    named := by
      intro hnone
      cases hnone }
  deployment := by
    intro name hname
    cases hname
  cluster := by
    intro cluster hcluster
    cases hcluster
  programId := by
    intro value hvalue
    cases hvalue

/-- Settings of a known group are resolved to its deployment, if they agree with it. -/
theorem resolve_known (hknown : findFermiV1DeploymentByGroup groupPk.toBase58 = some deployment)
    (hprogram : programId.toBase58 = deployment.programId) :
    config.resolve = .ok resolved ∧ resolved.groupPk = groupPk ↔
      resolved = ⟨groupPk, some deployment, deployment.cluster, programId⟩ ∧
        config.Agrees groupPk deployment := by
  constructor
  · rintro ⟨h, rfl⟩
    obtain ⟨hnames, hsets, hfound, hcluster, hmatch, hsetting, -⟩ := resolve_eq_ok.1 h
    rw [hknown] at hfound
    obtain ⟨hd, hp⟩ := hmatch deployment hfound
    have hsame : resolved.programId = programId :=
      PublicKey.toBase58_inj (hp.symm.trans hprogram.symm)
    constructor
    · cases resolved
      cases hfound
      cases hsame
      cases hd
      rfl
    · refine ⟨hsets, fun name hname => ?_, fun cluster hset => ?_, fun value hvalue => ?_⟩
      · obtain ⟨d, hlookup, hgroup⟩ := hnames name hname
        have hsame : d = deployment := by
          rw [← hgroup, find_of_lookup hlookup] at hknown
          exact Option.some_inj.1 hknown
        rw [hsame] at hlookup
        exact (lookup_iff_of_find hknown).1 hlookup
      · rw [hset] at hcluster
        exact hcluster.symm.trans hd.symm
      · exact ⟨resolved.programId, hsetting value hvalue, hp.symm⟩
  · rintro ⟨rfl, hagrees⟩
    refine ⟨resolve_eq_ok.2 ⟨?names, hagrees.groupPk, hknown.symm, ?cluster, ?matched, ?setting,
      fun _ => rfl⟩, rfl⟩
    case names =>
      intro name hname
      exact ⟨deployment, (lookup_iff_of_find hknown).2 (hagrees.deployment name hname),
        (findFermiV1DeploymentByGroup_eq_some.1 hknown).2⟩
    case cluster =>
      cases hset : config.cluster with
      | none => rfl
      | some cluster => exact (hagrees.cluster cluster hset).symm
    case matched =>
      intro d hd
      cases hd
      exact ⟨rfl, hprogram.symm⟩
    case setting =>
      intro value hvalue
      obtain ⟨key, hkey, htext⟩ := hagrees.programId value hvalue
      rw [← PublicKey.toBase58_inj (htext.trans hprogram.symm)]
      exact hkey

theorem resolve_withGroupOnly
    (hknown : findFermiV1DeploymentByGroup groupPk.toBase58 = some deployment)
    (hprogram : programId.toBase58 = deployment.programId) :
    (config.withGroupOnly groupPk).resolve =
      .ok ⟨groupPk, some deployment, deployment.cluster, programId⟩ :=
  ((resolve_known hknown hprogram).2 ⟨rfl, agrees_withGroupOnly⟩).1

theorem createFermiV1Context_eq_ok : createFermiV1Context env config = .ok context ↔
    ∃ apiKey, requireApiKey config.apiKey "createFermiV1Context" = .ok apiKey ∧
      ∃ user, config.user = .ok user ∧ ∃ resolved, config.resolve = .ok resolved ∧
        config.load env apiKey user resolved = .ok context := by
  unfold createFermiV1Context
  simp only [Throws.bind_eq_ok]

/-- What a context that was loaded says is what was resolved, and its account was read for it. -/
theorem load_inv {apiKey : String} {user : Keypair}
    (h : config.load env apiKey user resolved = .ok context) :
    (context.apiKey = apiKey ∧
      resolved = ⟨context.groupPk, context.deployment, context.cluster, context.programId⟩) ∧
    context.ReadsAccount env config ∧ context.account.group = context.groupPk := by
  unfold FermiV1ContextConfig.load at h
  simp only [Throws.bind_eq_ok, Throws.throwIf_eq_ok, exists_const, not_not,
    Throws.pure_eq_ok] at h
  obtain ⟨node, hnode, pk, hpk, account, haccount, hgroup, _, -, _, -, rfl⟩ := h
  exact ⟨⟨rfl, rfl⟩, ⟨hpk, node, hnode, haccount⟩, hgroup⟩

theorem uuid_of_requireApiKey {key : Option String} {who apiKey : String}
    (h : requireApiKey key who = .ok apiKey) : UUID_RE apiKey = true := by
  unfold requireApiKey at h
  cases hkey : key.filter UUID_RE with
  | none =>
    rw [hkey] at h
    cases h
  | some value =>
    rw [hkey] at h
    cases h
    exact (Option.filter_eq_some_iff.1 hkey).2

theorem sound_of_created (h : createFermiV1Context env config = .ok context) :
    context.Sound env config := by
  obtain ⟨apiKey, hapiKey, user, -, resolved, hresolved, hload⟩ := createFermiV1Context_eq_ok.1 h
  obtain ⟨⟨rfl, rfl⟩, haccount, hgroup⟩ := load_inv hload
  obtain ⟨hnames, -, hfound, -, hmatch, hsetting, hsome⟩ := resolve_eq_ok.1 hresolved
  refine ⟨uuid_of_requireApiKey hapiKey, haccount, hgroup, hfound, fun d hd => ?_,
    fun hnone => ⟨?_, ?_⟩⟩
  · obtain ⟨hcluster, hprogram⟩ := hmatch d hd
    exact ⟨hcluster.symm, hprogram.symm⟩
  · -- A deployment that is named would be the one of the group.
    cases hname : config.deployment.filter (· ≠ "") with
    | none => rfl
    | some name =>
      obtain ⟨d, hlookup, hd⟩ := hnames name hname
      have hknown := find_of_lookup hlookup
      rw [hd, ← hfound, hnone] at hknown
      cases hknown
  · cases hvalue : config.programId with
    | none =>
      have hisSome := hsome hvalue
      rw [hnone] at hisSome
      cases hisSome
    | some value => exact ⟨value, rfl, hsetting value hvalue⟩

/-- **Settings of a known group are assertions.** A context was checked for what it says; and for a
group of a deployment, what else is set never changes the context, but only refuses it. -/
theorem created_context :
    (∀ context, createFermiV1Context env config = .ok context →
      context.Sound env config) ∧
    ∀ groupPk deployment, findFermiV1DeploymentByGroup groupPk.toBase58 = some deployment →
      ∀ context, createFermiV1Context env config = .ok context ∧ context.groupPk = groupPk ↔
        createFermiV1Context env (config.withGroupOnly groupPk) = .ok context ∧
          config.Agrees groupPk deployment := by
  refine ⟨fun context => sound_of_created, fun groupPk deployment hknown context => ?_⟩
  obtain ⟨programId, hprogram⟩ := (wellFormed_of_find hknown).programId
  rw [createFermiV1Context_eq_ok, createFermiV1Context_eq_ok]
  constructor
  · rintro ⟨⟨apiKey, hapiKey, user, huser, resolved, hresolved, hload⟩, hgroup⟩
    have hsame : resolved.groupPk = groupPk := by
      rw [(load_inv hload).1.2]
      exact hgroup
    obtain ⟨rfl, hagrees⟩ := (resolve_known hknown hprogram).1 ⟨hresolved, hsame⟩
    exact ⟨⟨apiKey, hapiKey, user, huser, _, resolve_withGroupOnly hknown hprogram, hload⟩,
      hagrees⟩
  · rintro ⟨⟨apiKey, hapiKey, user, huser, resolved, hresolved, hload⟩, hagrees⟩
    rw [resolve_withGroupOnly hknown hprogram] at hresolved
    cases hresolved
    refine ⟨⟨apiKey, hapiKey, user, huser, _,
      ((resolve_known hknown hprogram).2 ⟨rfl, hagrees⟩).1, hload⟩, ?_⟩
    have hsame := (load_inv hload).1.2
    exact (congrArg Resolved.groupPk hsame).symm

/-! ## The configuration of a context -/

/-- The configuration of a context as one to create a context from. -/
def ResolvedFermiV1ContextConfig.toConfig (config : ResolvedFermiV1ContextConfig) :
    FermiV1ContextConfig where
  cluster := some config.cluster
  clusterUrl := some config.clusterUrl
  deployment := config.deployment
  gatewayUrl := config.gatewayUrl
  gatewayGrpcAddr := config.gatewayGrpcAddr
  apiKey := some config.apiKey
  user := config.user
  groupPk := some (.key config.groupPk)
  fermiAccountPk := .key config.fermiAccountPk
  executionQueuePk := config.executionQueuePk
  programId := some (.key config.programId)
  commitment := config.commitment

/-- The name of a resolved deployment is one for its group. -/
theorem namesGroup_resolved (h : config.resolve = .ok resolved) :
    NamesGroup ((resolved.deployment.map (·.name)).or config.deployment) resolved.groupPk := by
  obtain ⟨hnames, -, hfound, -⟩ := resolve_eq_ok.1 h
  cases hdeployment : resolved.deployment with
  | none => exact hnames
  | some d =>
    rw [hdeployment] at hfound
    intro n hn
    obtain rfl : d.name = n := Option.some.inj (Option.filter_eq_some_iff.1 hn).1
    exact ⟨d, (lookup_iff_of_find hfound.symm).2 rfl,
      (findFermiV1DeploymentByGroup_eq_some.1 hfound.symm).2⟩

theorem or_or_self {α : Type} (a b : Option α) : a.or (a.or b) = a.or b := by
  rw [← Option.or_assoc, Option.or_self]

/-- The configuration of a resolved context is resolved to the same. -/
theorem resolve_toConfig {config' : ResolvedFermiV1ContextConfig}
    (h : config.resolve = .ok resolved)
    (hdeployment : config'.deployment = (resolved.deployment.map (·.name)).or config.deployment)
    (hgroup : config'.groupPk = resolved.groupPk) (hcluster : config'.cluster = resolved.cluster)
    (hprogram : config'.programId = resolved.programId) :
    config'.toConfig.resolve = .ok resolved := by
  have hnames := namesGroup_resolved h
  obtain ⟨-, -, hfound, -, hmatch, -⟩ := resolve_eq_ok.1 h
  refine resolve_eq_ok.2 ⟨?names, ⟨?setting, ?named⟩, hfound, ?cluster, hmatch, ?program, ?unset⟩
  case names =>
    rw [← hdeployment] at hnames
    exact hnames
  case setting =>
    intro value hvalue
    cases hvalue
    rw [hgroup]
    rfl
  case named =>
    intro hnone
    cases hnone
  case cluster => exact hcluster.symm
  case program =>
    intro value hvalue
    cases hvalue
    rw [hprogram]
    rfl
  case unset =>
    intro hnone
    cases hnone

theorem requireApiKey_of_uuid {apiKey who : String} (h : UUID_RE apiKey = true) :
    requireApiKey (some apiKey) who = .ok apiKey := by
  unfold requireApiKey
  rw [Option.filter_some, if_pos h]
  rfl

/-- **A context says how to create it.** From the configuration that a context has the very context
is created, if the nodes answer as they did. -/
theorem recreated_context (h : createFermiV1Context env config = .ok context) :
    createFermiV1Context env context.config.toConfig = .ok context := by
  obtain ⟨apiKey, hapiKey, user, huser, resolved, hresolved, hload⟩ :=
    createFermiV1Context_eq_ok.1 h
  have huuid := uuid_of_requireApiKey hapiKey
  unfold FermiV1ContextConfig.load at hload
  simp only [Throws.bind_eq_ok, Throws.throwIf_eq_ok, exists_const, not_not,
    Throws.pure_eq_ok] at hload
  obtain ⟨node, hnode, pk, -, account, haccount, hgroup, group, hgetGroup, queue, hqueue, rfl⟩ :=
    hload
  refine createFermiV1Context_eq_ok.2 ⟨apiKey, requireApiKey_of_uuid huuid, user, huser, resolved,
    resolve_toConfig hresolved rfl rfl rfl rfl, ?_⟩
  unfold FermiV1ContextConfig.load
  simp only [ResolvedFermiV1ContextConfig.toConfig, Throws.bind_eq_ok, Throws.throwIf_eq_ok,
    exists_const, not_not, Throws.pure_eq_ok, Option.or_assoc, Option.or_self, or_or_self]
  exact ⟨node, hnode, pk, rfl, account, haccount, hgroup, group, hgetGroup, queue, hqueue, rfl⟩

end

/-! ## A recorded configuration -/

namespace RecordedContext

open TriggerOrders.Recorded (group)

/-- The node of the recorded account. -/
def node : Node where
  connection := RecordedAccount.chain.connection
  getGroup _ _ := pure RecordedCancel.context.group
  deriveFallbackOracleContexts _ := RecordedCancel.context.fallbackOracleContexts
  getSlot := RecordedCancel.context.getSlot

def env : Environment where
  connect _ _ := pure node
  coder := .documented RecordedAccount.runtime

/-- Everything that a deployment has is set. -/
def config : FermiV1ContextConfig where
  cluster := some .mainnetBeta
  clusterUrl := none
  deployment := some "fermi-r9-mainnet"
  gatewayUrl := none
  gatewayGrpcAddr := none
  apiKey := some Gateway.RecordedCall.apiKey
  user := pure RecordedCancel.context.user
  groupPk := some (.key group)
  fermiAccountPk := .key RecordedAccount.address
  executionQueuePk := none
  programId := some (.key RecordedCancel.programId)
  commitment := none

theorem agrees : config.Agrees group FERMI_R9_MAINNET where
  groupPk := {
    setting := by
      intro value hvalue
      cases hvalue
      rfl
    named := by
      intro hnone
      cases hnone }
  deployment := by
    intro name hname
    cases hname
    rfl
  cluster := by
    intro cluster hcluster
    cases hcluster
    rfl
  programId := by
    intro value hvalue
    cases hvalue
    exact ⟨RecordedCancel.programId, rfl, programId_recorded⟩

set_option maxRecDepth 8000 in
/-- The group alone gives a context. -/
theorem exists_created : ∃ context,
    createFermiV1Context env (config.withGroupOnly group) = .ok context := by
  have hknown := findFermiV1DeploymentByGroup_eq_some.2
    ⟨List.mem_singleton_self _, group_recorded.symm⟩
  obtain ⟨context, hload⟩ : ∃ context, (config.withGroupOnly group).load env
      Gateway.RecordedCall.apiKey RecordedCancel.context.user
      ⟨group, some FERMI_R9_MAINNET, .mainnetBeta, RecordedCancel.programId⟩ = .ok context :=
    ⟨_, rfl⟩
  exact ⟨context, createFermiV1Context_eq_ok.2
    ⟨_, rfl, _, rfl, _, resolve_withGroupOnly hknown programId_recorded, hload⟩⟩

end RecordedContext

open TriggerOrders.Recorded (group) in
open RecordedContext in
/-- The context of the group alone is also that of the whole configuration. -/
theorem created_context_recorded : ∃ context,
    createFermiV1Context env config = .ok context ∧ context.groupPk = group := by
  have hknown := findFermiV1DeploymentByGroup_eq_some.2
    ⟨List.mem_singleton_self _, group_recorded.symm⟩
  obtain ⟨context, hcreated⟩ := exists_created
  exact ⟨context, (created_context.2 group _ hknown context).2 ⟨hcreated, agrees⟩⟩

open TriggerOrders.Recorded (group) in
open RecordedContext in
theorem recreated_context_recorded : ∃ context,
    createFermiV1Context env (config.withGroupOnly group) = .ok context ∧
      createFermiV1Context env context.config.toConfig = .ok context := by
  obtain ⟨context, hcontext⟩ := exists_created
  exact ⟨context, hcontext, recreated_context hcontext⟩

end FermiSdk
