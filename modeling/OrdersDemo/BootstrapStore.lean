import OrdersDemo.RustfsBootstrap

namespace OrdersDemo

/-- What the script relies on: a status of zero is true at that moment, and a call changes no more
than it is for. A failure may mean anything. -/
structure ObjectStore.Lawful {W : Type} (store : ObjectStore W) : Prop where
  headBucket : ∀ w b, (store.call (.headBucket b) w).1 = 0 →
    store.bucket (store.call (.headBucket b) w).2 b
  createBucket : ∀ w b, (store.call (.createBucket b) w).1 = 0 →
    store.bucket (store.call (.createBucket b) w).2 b
  waitObjectNotExists : ∀ w b k, (store.call (.waitObjectNotExists b k) w).1 = 0 →
    ¬ store.object (store.call (.waitObjectNotExists b k) w).2 b k
  keepsBucket : ∀ c w b, store.bucket w b → store.bucket (store.call c w).2 b
  makesBucket : ∀ c w b, store.bucket (store.call c w).2 b →
    store.bucket w b ∨ c = .createBucket b
  keepsObject : ∀ c w b k, store.object w b k →
    store.object (store.call c w).2 b k ∨ c = .deleteObject b k
  makesObject : ∀ c w b k, store.object (store.call c w).2 b k → store.object w b k

def obsoleteObjects : List (String × String) :=
  [(obsoleteLogsManifestBucket, obsoleteLogsManifestKey),
    (obsoleteLogsManifestBucket, obsoleteLogsShardCatalogKey)]

section Frame

variable {W : Type} {store : ObjectStore W} {J : W → List (S3Call × ℕ) → Prop}

/-- A property of the store and of the calls so far that the call keeps. -/
def S3Call.Keeps (store : ObjectStore W) (J : W → List (S3Call × ℕ) → Prop) (c : S3Call) : Prop :=
  ∀ w calls, J w calls → J (store.call c w).2 (calls ++ [(c, (store.call c w).1)])

theorem S3Call.Keeps.aws {c : S3Call} (h : c.Keeps store J) :
    Shell.Keeps (fun s => J s.world s.calls) (aws store c) :=
  .run fun s hs => h s.world s.calls hs

theorem ensureBucket_keeps {bucket : String} (hhead : (S3Call.headBucket bucket).Keeps store J)
    (hcreate : (S3Call.createBucket bucket).Keeps store J) :
    Shell.Keeps (fun s => J s.world s.calls) (ensureBucket store bucket) :=
  .block (by
    simp only [List.mem_cons, List.not_mem_nil, or_false, forall_eq_or_imp, forall_eq]
    exact ⟨.ifElse hhead.aws .jump .skip, hcreate.aws⟩)

theorem deleteObsoleteObject_keeps {label bucket key : String}
    (hhead : (S3Call.headObject bucket key).Keeps store J)
    (hdelete : (S3Call.deleteObject bucket key).Keeps store J)
    (hwait : (S3Call.waitObjectNotExists bucket key).Keeps store J) :
    Shell.Keeps (fun s => J s.world s.calls) (deleteObsoleteObject store label bucket key) := by
  have hquiet : ∀ f : BootstrapState W → BootstrapState W,
      (∀ s, (f s).world = s.world ∧ (f s).calls = s.calls) →
      Shell.Keeps (fun s => J s.world s.calls) (Shell.assign f) := by
    intro f hf
    refine .assign fun s hs => ?_
    obtain ⟨hworld, hcalls⟩ := hf s
    rwa [hworld, hcalls]
  have hattempt : ∀ attempt, Shell.Keeps (fun s => J s.world s.calls)
      (removeAttempt store label bucket key attempt) := by
    intro attempt
    refine .block ?_
    simp only [List.mem_cons, List.not_mem_nil, or_false, forall_eq_or_imp, forall_eq]
    refine ⟨.ifElse (.both hdelete.aws hwait.aws) (.block ?_) .skip, hquiet _ fun _ => ⟨rfl, rfl⟩,
      hquiet _ fun _ => ⟨rfl, rfl⟩⟩
    simp only [List.mem_cons, List.not_mem_nil, or_false, forall_eq_or_imp, forall_eq]
    exact ⟨hquiet _ fun _ => ⟨rfl, rfl⟩, hquiet _ fun _ => ⟨rfl, rfl⟩, .jump⟩
  refine .func (.block ?_)
  simp only [List.mem_cons, List.not_mem_nil, or_false, forall_eq_or_imp, forall_eq]
  refine ⟨.ifElse (.neg hhead.aws) .jump .skip, hquiet _ fun _ => ⟨rfl, rfl⟩,
    .forEach fun attempt _ => hattempt attempt, .ifElse .test (.block ?_) .skip⟩
  simp only [List.mem_cons, List.not_mem_nil, or_false, forall_eq_or_imp, forall_eq]
  exact ⟨hquiet _ fun _ => ⟨rfl, rfl⟩, .jump⟩

def bootstrapCalls : List S3Call :=
  signalBuckets.flatMap (fun b => [.headBucket b, .createBucket b]) ++
    obsoleteObjects.flatMap fun o =>
      [.headObject o.1 o.2, .deleteObject o.1 o.2, .waitObjectNotExists o.1 o.2]

theorem bootstrap_keeps (h : ∀ c ∈ bootstrapCalls, c.Keeps store J) :
    Shell.Keeps (fun s => J s.world s.calls) (bootstrap store) := by
  have hbucket : ∀ b ∈ signalBuckets, ∀ c ∈ [S3Call.headBucket b, .createBucket b],
      c.Keeps store J := fun b hb c hc =>
    h c (List.mem_append_left _ (List.mem_flatMap.mpr ⟨b, hb, hc⟩))
  have hobject : ∀ o ∈ obsoleteObjects, ∀ c ∈ [S3Call.headObject o.1 o.2,
      .deleteObject o.1 o.2, .waitObjectNotExists o.1 o.2], c.Keeps store J := fun o ho c hc =>
    h c (List.mem_append_right _ (List.mem_flatMap.mpr ⟨o, ho, hc⟩))
  have hdelete : ∀ label, ∀ o ∈ obsoleteObjects, Shell.Keeps (fun s => J s.world s.calls)
      (deleteObsoleteObject store label o.1 o.2) := fun label o ho =>
    deleteObsoleteObject_keeps (hobject o ho _ (by simp)) (hobject o ho _ (by simp))
      (hobject o ho _ (by simp))
  refine .block ?_
  simp only [List.mem_cons, List.not_mem_nil, or_false, forall_eq_or_imp, forall_eq]
  refine ⟨.forEach fun b hb => ensureBucket_keeps (hbucket b hb _ (by simp))
    (hbucket b hb _ (by simp)),
    hdelete _ (obsoleteLogsManifestBucket, obsoleteLogsManifestKey) (by simp [obsoleteObjects]),
    hdelete _ (obsoleteLogsManifestBucket, obsoleteLogsShardCatalogKey)
      (by simp [obsoleteObjects]), .assign fun _ hs => hs⟩

end Frame

end OrdersDemo
