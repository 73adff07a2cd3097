import OrdersDemo.Library.Shell

namespace OrdersDemo

inductive S3Call where
  | headBucket (bucket : String)
  | createBucket (bucket : String)
  | headObject (bucket key : String)
  | deleteObject (bucket key : String)
  | waitObjectNotExists (bucket key : String)
  deriving DecidableEq

/-- An object store: the exit status and the effect of a call, and what is in the store. -/
structure ObjectStore (W : Type) where
  call : S3Call → W → ℕ × W
  bucket : W → String → Prop
  object : W → String → String → Prop

/-- The variable, the calls and the output of the script. -/
structure BootstrapState (W : Type) where
  world : W
  removedObsoleteObject : ℕ := 0
  calls : List (S3Call × ℕ) := []
  slept : List ℕ := []
  stdout : List String := []
  stderr : List String := []

def signalBuckets : List String :=
  ["krabka-metrics", "krabka-traces", "krabka-logs", "krabka-profiles"]

def obsoleteLogsManifestBucket : String := "krabka-logs"

def obsoleteLogsManifestKey : String := "logs/tenant=demo/index/logs/manifest.json"

def obsoleteLogsShardCatalogKey : String := "logs/tenant=demo/index/logs/shards/manifest.json"

section Script

variable {W : Type} (store : ObjectStore W)

def aws (c : S3Call) : Shell (BootstrapState W) :=
  Shell.run fun s =>
    let (code, world) := store.call c s.world
    (code, { s with world, calls := s.calls ++ [(c, code)] })

def echo (line : String) : Shell (BootstrapState W) :=
  Shell.assign fun s => { s with stdout := s.stdout ++ [line] }

def echoError (line : String) : Shell (BootstrapState W) :=
  Shell.assign fun s => { s with stderr := s.stderr ++ [line] }

def sleep (seconds : ℕ) : Shell (BootstrapState W) :=
  Shell.assign fun s => { s with slept := s.slept ++ [seconds] }

def setRemoved (n : ℕ) : Shell (BootstrapState W) :=
  Shell.assign fun s => { s with removedObsoleteObject := n }

def ensureBucket (bucket : String) : Shell (BootstrapState W) :=
  .block [.ifElse (aws store (.headBucket bucket)) (.jump .cont) .skip,
    aws store (.createBucket bucket)]

def removeAttempt (label bucket key : String) (attempt : ℕ) : Shell (BootstrapState W) :=
  .block [
    .ifElse (.both (aws store (.deleteObject bucket key))
        (aws store (.waitObjectNotExists bucket key)))
      (.block [setRemoved 1, echo ("rustfs bootstrap: removed obsolete " ++ label), .jump .brk])
      .skip,
    echoError ("rustfs bootstrap: retrying obsolete " ++ label ++ " cleanup (attempt " ++
      toString attempt ++ ")"),
    sleep attempt]

def deleteObsoleteObject (label bucket key : String) : Shell (BootstrapState W) :=
  .func (.block [
    .ifElse (.neg (aws store (.headObject bucket key))) (.jump (.ret 0)) .skip,
    setRemoved 0,
    .forEach [1, 2, 3, 4, 5] (removeAttempt store label bucket key),
    .ifElse (.test (·.removedObsoleteObject ≠ 1))
      (.block [echoError ("rustfs bootstrap: failed to remove obsolete " ++ label),
        .jump (.exit 1)])
      .skip])

/-- `bootstrap.sh` -/
def bootstrap : Shell (BootstrapState W) :=
  .block [
    .forEach signalBuckets (ensureBucket store),
    deleteObsoleteObject store "logs full manifest" obsoleteLogsManifestBucket
      obsoleteLogsManifestKey,
    deleteObsoleteObject store "logs shard catalog" obsoleteLogsManifestBucket
      obsoleteLogsShardCatalogKey,
    echo "rustfs bootstrap: per-signal buckets ready"]

end Script

end OrdersDemo
