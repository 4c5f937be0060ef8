import FermiSdk.AccountClient
import FermiSdk.Gateway

/-!
# Deployments and the creation of a context

`src/deployments.ts`, and what `src/context.ts` makes of a configuration: which program, cluster and
gateway a context uses, and which account it holds. Of a deployment the model has what is read here.

What is read over a connection depends on its URL and its commitment (`Environment.connect`). Keys in
errors are base58 texts.
-/

namespace FermiSdk

open FermiSdk.Lib
open FermiSdk.Fees (KeyLike)
open FermiSdk.Gateway (requireApiKey)

/-- The clusters that a configuration can name. -/
inductive Cluster where
  | mainnetBeta
  | devnet
  | testnet
  | localnet
  deriving DecidableEq

/-- The name of a cluster. -/
def Cluster.text : Cluster → String
  | .mainnetBeta => "mainnet-beta"
  | .devnet => "devnet"
  | .testnet => "testnet"
  | .localnet => "localnet"

/-- One deployment of the program, for one group. -/
structure FermiV1Deployment where
  name : String
  cluster : Cluster
  rpcUrl : String
  programId : String
  group : String
  gatewayUrl : Option String
  gatewayGrpcAddr : Option String
  directPoolsInitialized : Bool
  deriving DecidableEq

/-- The one deployment that is known. It has no direct pools yet. -/
def FERMI_R9_MAINNET : FermiV1Deployment where
  name := "fermi-r9-mainnet"
  cluster := .mainnetBeta
  rpcUrl := "https://api.mainnet-beta.solana.com"
  programId := "FRMiX94PWHbndvySq8xyRx185GvPeggUeKaLmZgVdd4"
  group := "2mDvxS4A6bJyR3RjLwvBWeNuFvCAaQ26ss7w1jUChRse"
  gatewayUrl := some "https://v1.fermi.trade/prod"
  gatewayGrpcAddr := some "v1.fermi.trade:443"
  directPoolsInitialized := false

/-- The entries under their names. -/
def FERMI_V1_DEPLOYMENTS : List (String × FermiV1Deployment) :=
  [(FERMI_R9_MAINNET.name, FERMI_R9_MAINNET)]

/-- The names under which every object has a value that counts as true. -/
def inheritedNames : List String := [
  "__defineGetter__", "__defineSetter__", "__lookupGetter__", "__lookupSetter__", "__proto__",
  "constructor", "hasOwnProperty", "isPrototypeOf", "propertyIsEnumerable", "toLocaleString",
  "toString", "valueOf"]

/-- What an object has under a name: an entry, or what it inherits, which has no group. -/
inductive Registered where
  | deployment (deployment : FermiV1Deployment)
  | inherited

/-- `FERMI_V1_DEPLOYMENTS[name]`, of which an empty name gives nothing. -/
def getFermiV1Deployment (name : Option String) : Option Registered :=
  match name.filter (· ≠ "") with
  | none => none
  | some name =>
    match FERMI_V1_DEPLOYMENTS.lookup name with
    | some deployment => some (.deployment deployment)
    | none => if name ∈ inheritedNames then some .inherited else none

/-- An unknown name is an error that lists the known ones. -/
def requireFermiV1Deployment (name : String) : Throws Registered :=
  match getFermiV1Deployment (some name) with
  | some registered => pure registered
  | none => throw (s!"unknown Fermi v1 deployment {name}; known deployments: " ++
      ", ".intercalate (FERMI_V1_DEPLOYMENTS.map Prod.fst))

/-- Groups are compared by their texts. -/
def findFermiV1DeploymentByGroup (groupPk : String) : Option FermiV1Deployment :=
  (FERMI_V1_DEPLOYMENTS.map Prod.snd).find? fun deployment => deployment.group = groupPk

/-! ## Resolution -/

/-- Everything else is looked for on devnet, a local cluster too. -/
def defaultClusterUrl : Cluster → String
  | .mainnetBeta => "https://api.mainnet-beta.solana.com"
  | .testnet => "https://api.testnet.solana.com"
  | _ => "https://api.devnet.solana.com"

/-- `new PublicKey(text)`. -/
def newPublicKey (text : String) : Throws PublicKey := KeyLike.toPublicKey (.text text)

/-- The deployment of a group. A name has to be that of a deployment for this group. -/
def resolveDeploymentForGroup (groupPk : KeyLike) (deploymentName : Option String) :
    Throws (Option FermiV1Deployment) := do
  let group := (← groupPk.toPublicKey).toBase58
  match deploymentName.filter (· ≠ "") with
  | none => pure (findFermiV1DeploymentByGroup group)
  | some name =>
    match ← requireFermiV1Deployment name with
    | .inherited => throw s!"FERMI_DEPLOYMENT={name} is for group undefined, not {group}"
    | .deployment deployment =>
      throwIf (deployment.group ≠ group)
        s!"FERMI_DEPLOYMENT={name} is for group {deployment.group}, not {group}"
      pure (some deployment)

/-- The check of a deployment against the cluster. -/
def checkCluster (cluster : Cluster) : Option FermiV1Deployment → Throws Unit
  | none => pure ()
  | some deployment => throwIf (deployment.cluster ≠ cluster)
      s!"deployment {deployment.name} is on {deployment.cluster.text}, not {cluster.text}"

/-- The check of a deployment against the program. -/
def checkProgram (programId : PublicKey) : Option FermiV1Deployment → Throws Unit
  | none => pure ()
  | some deployment => throwIf (deployment.programId ≠ programId.toBase58)
      (s!"PROGRAM_ID={programId.toBase58} does not match deployment {deployment.name} " ++
        s!"program {deployment.programId}")

/-- The program of a group: the one that is set, which has to be that of a known deployment, or that of
the deployment. -/
def resolveProgramIdForGroup (cluster : Cluster) (groupPk : KeyLike) (programId : Option KeyLike)
    (deploymentName : Option String) : Throws PublicKey := do
  let deployment ← resolveDeploymentForGroup groupPk deploymentName
  checkCluster cluster deployment
  match programId with
  | some value =>
    let programId ← value.toPublicKey
    checkProgram programId deployment
    pure programId
  | none =>
    match deployment with
    | some deployment => newPublicKey deployment.programId
    | none => throw "unknown Fermi group; set an explicit programId for this deployment"

/-! ## The context -/

/-- `FermiV1ContextConfig`, with what `loadKeypair(config.userKeypair)` gives. -/
structure FermiV1ContextConfig where
  cluster : Option Cluster
  clusterUrl : Option String
  deployment : Option String
  gatewayUrl : Option String
  gatewayGrpcAddr : Option String
  apiKey : Option String
  user : Throws Keypair
  groupPk : Option KeyLike
  fermiAccountPk : KeyLike
  executionQueuePk : Option KeyLike
  programId : Option KeyLike
  commitment : Option String

/-- The configuration that a context returns, where nothing is left to be resolved. -/
structure ResolvedFermiV1ContextConfig where
  cluster : Cluster
  clusterUrl : String
  deployment : Option String
  gatewayUrl : Option String
  gatewayGrpcAddr : Option String
  apiKey : String
  user : Throws Keypair
  groupPk : PublicKey
  fermiAccountPk : PublicKey
  executionQueuePk : Option KeyLike
  programId : PublicKey
  commitment : Option String

/-- What a node answers to a client of a program. -/
structure Node where
  connection : ScanConnection
  getGroup : (programId groupPk : PublicKey) → Throws Group
  deriveFallbackOracleContexts : Group → Throws (PublicKey → Option (List PublicKey))
  getSlot : Throws Int

/-- What a context is created with beside its configuration. -/
structure Environment where
  /-- `new Connection(clusterUrl, commitment)`, which refuses a URL that is not http or https. Without
  a commitment the default of anchor is used. -/
  connect : (clusterUrl : String) → (commitment : Option String) → Throws Node
  coder : FermiAccountCoder

/-- The context that the trading functions take, and what else a created context has. `account` is
its `fermiAccount` with all that the client reads of it. -/
structure CreatedContext extends FermiV1Context where
  config : ResolvedFermiV1ContextConfig
  account : FermiAccount
  executionQueuePk : Option PublicKey
  gatewayUrl : Option String
  gatewayGrpcAddr : Option String
  apiKey : String
  deployment : Option FermiV1Deployment

namespace CreatedContext

variable (context : CreatedContext)

/-- What a context repeats of its configuration. -/
abbrev cluster : Cluster := context.config.cluster

abbrev clusterUrl : String := context.config.clusterUrl

abbrev groupPk : PublicKey := context.config.groupPk

end CreatedContext

/-! `createFermiV1Context` resolves the configuration (`resolve`) and then reads the account and the
group over the connection (`load`). -/

/-- What a configuration is resolved to. -/
structure Resolved where
  groupPk : PublicKey
  deployment : Option FermiV1Deployment
  cluster : Cluster
  programId : PublicKey

namespace FermiV1ContextConfig

variable (config : FermiV1ContextConfig)

/-- The deployment that the configuration names, which has to be known. -/
def namedDeployment : Throws (Option Registered) :=
  match config.deployment.filter (· ≠ "") with
  | none => pure none
  | some name => some <$> requireFermiV1Deployment name

/-- The group of the configuration, or that of the deployment that it names. -/
def configuredGroup (named : Option Registered) : Throws PublicKey :=
  match config.groupPk.filter KeyLike.truthy with
  | some groupPk => groupPk.toPublicKey
  | none =>
    match named with
    | none => throw "missing groupPk; set GROUP_PK or FERMI_DEPLOYMENT"
    | some .inherited => throw "Cannot read properties of undefined (reading '_bn')"
    | some (.deployment deployment) => newPublicKey deployment.group

/-- The group, its deployment, and the cluster and the program to use. -/
def resolve : Throws Resolved := do
  let groupPk ← config.configuredGroup (← config.namedDeployment)
  let deployment ← resolveDeploymentForGroup (.key groupPk) config.deployment
  let cluster := config.cluster.getD ((deployment.map (·.cluster)).getD .devnet)
  let programId ← resolveProgramIdForGroup cluster (.key groupPk) config.programId config.deployment
  pure { groupPk, deployment, cluster, programId }

/-- The context of a configuration that is resolved. -/
def load (env : Environment) (apiKey : String) (user : Keypair) (resolved : Resolved) :
    Throws CreatedContext := do
  let deployment := resolved.deployment
  let clusterUrl := (config.clusterUrl.or (deployment.map (·.rpcUrl))).getD
    (defaultClusterUrl resolved.cluster)
  let gatewayUrl := config.gatewayUrl.or (deployment.bind (·.gatewayUrl))
  let gatewayGrpcAddr := config.gatewayGrpcAddr.or (deployment.bind (·.gatewayGrpcAddr))
  let node ← env.connect clusterUrl config.commitment
  let client : FermiV1AccountClient := {
    connection := node.connection
    programId := resolved.programId
    coder := env.coder }
  let fermiAccountPk ← config.fermiAccountPk.toPublicKey
  let account ← client.getFermiAccount fermiAccountPk
  throwIf (account.group ≠ resolved.groupPk) "fermiAccountPk belongs to a different group"
  let group ← node.getGroup resolved.programId resolved.groupPk
  let executionQueuePk ← config.executionQueuePk.mapM KeyLike.toPublicKey
  pure {
    config := {
      clusterUrl, fermiAccountPk, gatewayUrl, gatewayGrpcAddr, apiKey
      cluster := resolved.cluster
      deployment := (deployment.map (·.name)).or config.deployment
      user := config.user
      groupPk := resolved.groupPk
      executionQueuePk := config.executionQueuePk
      programId := resolved.programId
      commitment := config.commitment }
    user, group, account, executionQueuePk, gatewayUrl, gatewayGrpcAddr, apiKey, deployment
    programId := resolved.programId
    fermiAccount := account.toFermiV1Account
    fallbackOracleContexts := node.deriveFallbackOracleContexts group
    directPoolsInitialized := deployment.map (·.directPoolsInitialized)
    getSlot := node.getSlot }

end FermiV1ContextConfig

/-- The key and the wallet are checked before anything is read. -/
def createFermiV1Context (env : Environment) (config : FermiV1ContextConfig) :
    Throws CreatedContext := do
  let apiKey ← requireApiKey config.apiKey "createFermiV1Context"
  let user ← config.user
  config.load env apiKey user (← config.resolve)

end FermiSdk
