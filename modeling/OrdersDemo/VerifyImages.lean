import Mathlib.Data.PNat.Basic
import OrdersDemo.Library.Shell
import OrdersDemo.CheckServices

namespace OrdersDemo

structure ImagePlatform where
  os : Option String
  architecture : Option String

/-- What `docker buildx imagetools inspect` tells of an image, as far as the script reads it. -/
structure ImageInspection where
  manifests : Option (List ImagePlatform)
  os : Option String
  architecture : Option String

/-- `.os + "/" + .architecture` -/
def ImagePlatform.name (p : ImagePlatform) : String :=
  p.os.getD "" ++ "/" ++ p.architecture.getD ""

def ImageInspection.platforms (i : ImageInspection) : List String :=
  match i.manifests, i.os, i.architecture with
  | some manifests, _, _ => manifests.map ImagePlatform.name
  | none, some os, some architecture => [os ++ "/" ++ architecture]
  | none, _, _ => []

/-- The answers of `docker`, or the status with which it fails. -/
structure ImageRegistry where
  actual : String → Except ℕ+ String
  digest : String → Except ℕ+ String
  inspect : String → Except ℕ+ ImageInspection

/-- The environment of the script. -/
structure VerifySettings where
  platform : String
  revision : String
  githubEnv : Option String

structure VerifyState where
  status : ℕ := 0
  image : String := ""
  actual : String := ""
  digest : String := ""
  platforms : List String := []
  githubEnv : List String := []
  stdout : List String := []
  stderr : List String := []

namespace VerifyImages

variable (registry : ImageRegistry) (settings : VerifySettings)

def localTag : String := "krabka-io/krabka-o11y-demo:sha-" ++ settings.revision

def isRelease (image : String) : Bool :=
  "ghcr.io/krabka-io/krabka-o11y-demo:v".toList <+: image.toList

def isPinned (image : String) : Bool :=
  hasPart image "@sha256:"

def pinnedRelease (digest : String) : String :=
  "ghcr.io/krabka-io/krabka-o11y-demo@" ++ digest

def accepted (image : String) : String :=
  settings.platform ++ "\t" ++ image

/-- An assignment of what a command prints. -/
def ask {α : Type} (question : VerifyState → Except ℕ+ α)
    (set : α → VerifyState → VerifyState) : Shell VerifyState :=
  Shell.run fun s =>
    match question s with
    | .ok answer => (0, set answer s)
    | .error code => (code, s)

def accept : Shell VerifyState :=
  Shell.assign fun s => { s with stdout := s.stdout ++ [accepted settings s.image] }

def complain (text : VerifyState → String) : Shell VerifyState :=
  Shell.assign fun s => { s with stderr := s.stderr ++ [text s], status := 1 }

/-- The case of an image that was built here. -/
def verifyLocal : Shell VerifyState :=
  .block [
    .test fun _ => settings.revision ≠ "",
    ask (fun s => registry.actual s.image) fun actual s => { s with actual },
    .ifElse (.test fun s => s.actual ≠ settings.platform)
      (complain fun s => s.image ++ " has platform " ++ s.actual ++ ", expected " ++
        settings.platform)
      (accept settings),
    .jump .cont]

/-- The case of a release, which is pinned to what its tag stands for. -/
def pinRelease : Shell VerifyState :=
  .block [
    ask (fun s => registry.digest s.image) fun digest s => { s with digest },
    .assign fun s => { s with image := pinnedRelease s.digest },
    .ifElse (.test fun _ => settings.githubEnv.getD "" ≠ "")
      (.assign fun s =>
        { s with githubEnv := s.githubEnv ++ ["KRABKA_DEMO_IMAGE=" ++ s.image] })
      .skip]

/-- The rest of the body, for an image that may be pinned. -/
def verifyPinned : Shell VerifyState :=
  .block [
    .ifElse (.test fun s => isPinned s.image) .skip
      (.block [complain fun s => "not digest pinned: " ++ s.image, .jump .cont]),
    ask (fun s => registry.inspect s.image) fun inspection s =>
      { s with platforms := inspection.platforms },
    .ifElse (.test fun s => s.platforms = [])
      (complain fun s => "cannot determine the published platform for " ++ s.image)
      (.ifElse (.test fun s => settings.platform ∉ s.platforms)
        (complain fun s => s.image ++ " does not publish " ++ settings.platform)
        (accept settings))]

def verifyImage (image : String) : Shell VerifyState :=
  .block [
    .assign fun s => { s with image },
    .ifElse (.test fun s => s.image = localTag settings) (verifyLocal registry settings)
      (.ifElse (.test fun s => isRelease s.image) (pinRelease registry settings) .skip),
    verifyPinned registry settings]

/-- `verify-images.sh`, for the sorted images of the configuration. -/
def verifyImages (images : List String) : Shell VerifyState :=
  .block [.forEach images (verifyImage registry settings), .leave fun s => .exit s.status]

end VerifyImages

end OrdersDemo
