import OrdersDemo.BootstrapRun

namespace OrdersDemo

/-- The script on a store that nobody else writes to. -/
def ObjectStore.bootstrapped {W : Type} (store : ObjectStore W) (w : W) :
    Shell.Ending × BootstrapState W :=
  bootstrap store true { world := w }

/-- A store whose answers to `head` are right both ways. -/
structure ObjectStore.Reliable {W : Type} (store : ObjectStore W) : Prop extends store.Lawful where
  bucketFound : ∀ w b, store.bucket w b → (store.call (.headBucket b) w).1 = 0
  objectMissed : ∀ w b k, (store.call (.headObject b k) w).1 ≠ 0 → ¬ store.object w b k
  objectFound : ∀ w b k, (store.call (.headObject b k) w).1 = 0 → store.object w b k
  headBucketPure : ∀ w b, (store.call (.headBucket b) w).2 = w
  headObjectPure : ∀ w b k, (store.call (.headObject b k) w).2 = w

/-- A volume: its buckets, its objects, and how many deletions are still refused. -/
structure Volume where
  buckets : List String
  objects : List (String × String)
  refusals : ℕ

def Volume.call : S3Call → Volume → ℕ × Volume
  | .headBucket b, v => (if b ∈ v.buckets then 0 else 254, v)
  | .createBucket b, v => (0, { v with buckets := b :: v.buckets })
  | .headObject b k, v => (if (b, k) ∈ v.objects then 0 else 254, v)
  | .deleteObject b k, v =>
    if 0 < v.refusals then (1, { v with refusals := v.refusals - 1 })
    else (0, { v with objects := v.objects.filter (· ≠ (b, k)) })
  | .waitObjectNotExists b k, v => (if (b, k) ∈ v.objects then 255 else 0, v)

def volumeStore : ObjectStore Volume where
  call := Volume.call
  bucket v b := b ∈ v.buckets
  object v b k := (b, k) ∈ v.objects

theorem volumeStore_reliable : volumeStore.Reliable where
  headBucket v b h := by simpa [volumeStore, Volume.call] using h
  createBucket v b _ := by simp [volumeStore, Volume.call]
  waitObjectNotExists v b k h := by simpa [volumeStore, Volume.call] using h
  keepsBucket c v b h := by
    cases c <;> simp only [volumeStore, Volume.call] at h ⊢
    case createBucket => exact List.mem_cons_of_mem _ h
    case deleteObject => split <;> exact h
    all_goals exact h
  makesBucket c v b h := by
    cases c <;> simp only [volumeStore, Volume.call] at h ⊢
    case createBucket => exact (List.mem_cons.mp h).symm.imp_right fun hb => by rw [hb]
    case deleteObject => exact Or.inl (by split at h <;> exact h)
    all_goals exact Or.inl h
  keepsObject c v b k h := by
    cases c <;> simp only [volumeStore, Volume.call] at h ⊢
    case deleteObject b' k' =>
      split
      · exact Or.inl h
      · by_cases hk : (b, k) = (b', k')
        · obtain ⟨rfl, rfl⟩ := Prod.mk.inj hk
          exact Or.inr rfl
        · exact Or.inl (List.mem_filter.mpr ⟨h, decide_eq_true hk⟩)
    all_goals exact Or.inl h
  makesObject c v b k h := by
    cases c <;> simp only [volumeStore, Volume.call] at h ⊢
    case deleteObject =>
      split at h
      · exact h
      · exact (List.mem_filter.mp h).1
    all_goals exact h
  bucketFound v b h := if_pos h
  objectMissed v b k h := fun hk => h (if_pos hk)
  objectFound v b k h := by simpa [volumeStore, Volume.call] using h
  headBucketPure v b := rfl
  headObjectPure v b k := rfl

/-- An old volume that refuses two deletions. -/
def oldVolume : Volume :=
  ⟨["krabka-logs"], [("krabka-logs", "other"), (obsoleteLogsManifestBucket,
    obsoleteLogsManifestKey)], 2⟩

section Frame

variable {W : Type} {store : ObjectStore W} {w : W}

theorem bootstrap_keeps_bucket (hstore : store.Lawful) {b : String} (hb : store.bucket w b) :
    store.bucket (store.bootstrapped w).2.world b :=
  bootstrap_keeps (J := fun w _ => store.bucket w b)
    (fun c _ w _ h => hstore.keepsBucket c w b h) true { world := w } hb

theorem bootstrap_makes_bucket (hstore : store.Lawful) {b : String}
    (hb : store.bucket (store.bootstrapped w).2.world b) :
    store.bucket w b ∨ b ∈ signalBuckets := by
  have hkeep : ∀ c ∈ bootstrapCalls, c.Keeps store fun w' _ =>
      store.bucket w' b → store.bucket w b ∨ b ∈ signalBuckets := by
    intro c hc w' _ h hb
    rcases hstore.makesBucket c w' b hb with hb | rfl
    · exact h hb
    · refine Or.inr ?_
      simpa [bootstrapCalls, obsoleteObjects] using hc
  exact bootstrap_keeps hkeep true { world := w } Or.inl hb

theorem bootstrap_makes_object (hstore : store.Lawful) {b k : String}
    (hk : store.object (store.bootstrapped w).2.world b k) : store.object w b k :=
  bootstrap_keeps (J := fun w' _ => store.object w' b k → store.object w b k)
    (fun c _ w' _ h hk => h (hstore.makesObject c w' b k hk)) true { world := w } id hk

theorem bootstrap_keeps_object (hstore : store.Lawful) {b k : String} (hk : store.object w b k) :
    store.object (store.bootstrapped w).2.world b k ∨ (b, k) ∈ obsoleteObjects := by
  have hkeep : ∀ c ∈ bootstrapCalls, c.Keeps store fun w' _ =>
      store.object w' b k ∨ (b, k) ∈ obsoleteObjects := by
    rintro c hc w' _ (hk | hk)
    · rcases hstore.keepsObject c w' b k hk with hk | rfl
      · exact Or.inl hk
      · refine Or.inr ?_
        simpa [bootstrapCalls, obsoleteObjects] using hc
    · exact Or.inr hk
  exact bootstrap_keeps hkeep true { world := w } (.inl hk)

/-- The script only adds its buckets and only takes the two obsolete objects away. It either does
its job or says why not: a bucket that cannot be made ends it at once, an object only after five
attempts. -/
theorem bootstrap_law (hstore : store.Lawful) (w : W) :
    let (r, s) := store.bootstrapped w
    (∀ b, store.bucket w b → store.bucket s.world b) ∧
      (∀ b, store.bucket s.world b → store.bucket w b ∨ b ∈ signalBuckets) ∧
      (∀ b k, store.object s.world b k → store.object w b k) ∧
      (∀ b k, store.object w b k → store.object s.world b k ∨ (b, k) ∈ obsoleteObjects) ∧
      (r = .status 0 ∧ Bootstrapped store s ∨ BootstrapState.Uncreated r s ∨
        ∃ o ∈ obsoleteObjects, BootstrapState.Unremoved o.1 o.2 r s) :=
  ⟨fun _ => bootstrap_keeps_bucket hstore, fun _ => bootstrap_makes_bucket hstore,
    fun _ _ => bootstrap_makes_object hstore, fun _ _ => bootstrap_keeps_object hstore,
    bootstrap_wp hstore⟩

end Frame

theorem bootstrap_law_old_volume :
    (volumeStore.bootstrapped oldVolume).2.slept = [1, 2] ∧
      volumeStore.object (volumeStore.bootstrapped oldVolume).2.world "krabka-logs" "other" := by
  obtain ⟨-, -, -, hkeep, -⟩ := bootstrap_law volumeStore_reliable.toLawful oldVolume
  exact ⟨by decide +kernel,
    (hkeep "krabka-logs" "other" (.head _)).resolve_right (by decide +kernel)⟩

section Again

variable {W : Type} {store : ObjectStore W} {w : W}

def lookingCalls : List S3Call :=
  signalBuckets.map .headBucket ++ obsoleteObjects.map fun o => .headObject o.1 o.2

theorem ensureBuckets_settled (hstore : store.Reliable) {s : BootstrapState W}
    (hready : ∀ b ∈ signalBuckets, store.bucket s.world b) :
    Shell.wp (.forEach signalBuckets (ensureBucket store)) true
      (fun r t => (∃ code, r = .status code) ∧ t.world = s.world ∧
        t.calls.map Prod.fst = s.calls.map Prod.fst ++ signalBuckets.map .headBucket) s := by
  refine Shell.wp_forEach (I := fun rest t => t.world = s.world ∧ ∃ done,
    signalBuckets = done ++ rest ∧
      t.calls.map Prod.fst = s.calls.map Prod.fst ++ done.map .headBucket) ?_ ?_
    ⟨rfl, [], rfl, (List.append_nil _).symm⟩
  · rintro b rest t ⟨hworld, done, hdone, hcalls⟩
    have hb : b ∈ signalBuckets := by
      rw [hdone]
      simp
    have hfound : (store.call (.headBucket b) t.world).1 = 0 :=
      hstore.bucketFound t.world b (hworld ▸ hready b hb)
    rw [ensureBucket, Shell.wp_block_cons, Shell.wp_ifElse, aws, Shell.wp_run]
    simp only [Shell.settle, hfound, Shell.go_status, ↓reduceIte, Shell.wp_jump, ne_eq,
      not_true_eq_false, and_false]
    refine ⟨(hstore.headBucketPure t.world b).trans hworld, done ++ [b], by simpa using hdone, ?_⟩
    rw [List.map_append, hcalls, List.map_append, List.append_assoc]
    rfl
  · rintro code t ⟨hworld, done, hdone, hcalls⟩
    rw [List.append_nil] at hdone
    exact ⟨⟨code, rfl⟩, hworld, hdone ▸ hcalls⟩

theorem deleteObsoleteObject_settled (hstore : store.Reliable) {s : BootstrapState W}
    {label b k : String} (hgone : ¬ store.object s.world b k) :
    Shell.wp (deleteObsoleteObject store label b k) true
      (fun r t => (∃ code, r = .status code) ∧ t.world = s.world ∧
        t.calls.map Prod.fst = s.calls.map Prod.fst ++ [.headObject b k]) s := by
  have hmissed : (store.call (.headObject b k) s.world).1 ≠ 0 := fun h =>
    hgone (hstore.objectFound s.world b k h)
  rw [deleteObsoleteObject, Shell.wp_func, Shell.wp_block_cons, Shell.wp_ifElse,
    Shell.wp_neg, aws, Shell.wp_run]
  simp only [Shell.settle, Bool.false_eq_true, false_and, ↓reduceIte, Shell.go_status, hmissed,
    Shell.wp_jump]
  refine ⟨⟨0, rfl⟩, hstore.headObjectPure s.world b k, ?_⟩
  rw [List.map_append]
  rfl

theorem bootstrap_settled (hstore : store.Reliable)
    (hready : ∀ b ∈ signalBuckets, store.bucket w b)
    (hgone : ∀ o ∈ obsoleteObjects, ¬ store.object w o.1 o.2) :
    Shell.wp (bootstrap store) true
      (fun r s => r = .status 0 ∧ s.world = w ∧ s.calls.map Prod.fst = lookingCalls)
      { world := w } := by
  rw [forall_obsoleteObjects] at hgone
  rw [bootstrap, Shell.wp_block_cons]
  refine Shell.wp_mono (ensureBuckets_settled hstore hready) ?_
  rintro _ s ⟨⟨code, rfl⟩, hworld, hcalls⟩
  rw [Shell.go_status, Shell.wp_block_cons]
  refine Shell.wp_mono (deleteObsoleteObject_settled hstore (hworld ▸ hgone.1)) ?_
  rintro _ s' ⟨⟨code', rfl⟩, hworld', hcalls'⟩
  have hw : s'.world = w := hworld'.trans hworld
  rw [Shell.go_status, Shell.wp_block_cons]
  refine Shell.wp_mono (deleteObsoleteObject_settled hstore (hw ▸ hgone.2)) ?_
  rintro _ s'' ⟨⟨code'', rfl⟩, hworld'', hcalls''⟩
  refine ⟨rfl, hworld''.trans hw, ?_⟩
  show s''.calls.map Prod.fst = lookingCalls
  rw [hcalls'', hcalls', hcalls]
  rfl

/-- An answer that an object is missing stays right. -/
theorem bootstrap_missed (hstore : store.Reliable) {b k : String} {code : ℕ} (hcode : code ≠ 0)
    (h : (.headObject b k, code) ∈ (store.bootstrapped w).2.calls) :
    ¬ store.object (store.bootstrapped w).2.world b k := by
  have hcall : ∀ c : S3Call, c.Keeps store fun w calls =>
      (.headObject b k, code) ∈ calls → ¬ store.object w b k := by
    intro c w calls hmissed hmem hk
    rcases List.mem_append.mp hmem with hmem | hmem
    · exact hmissed hmem (hstore.makesObject c w b k hk)
    · obtain ⟨rfl, rfl⟩ := Prod.mk.inj (List.mem_singleton.mp hmem)
      exact hstore.objectMissed w b k hcode (hstore.makesObject _ w b k hk)
  exact bootstrap_keeps (fun c _ => hcall c) true { world := w } (fun h => absurd h (by simp)) h

/-- After a run that did its job another run only looks, and leaves the store as it is. -/
theorem bootstrap_again (hstore : store.Reliable) (h : (store.bootstrapped w).1 = .status 0) :
    let again := store.bootstrapped (store.bootstrapped w).2.world
    again.1 = .status 0 ∧ again.2.world = (store.bootstrapped w).2.world ∧
      again.2.calls.map Prod.fst = lookingCalls := by
  have hdone : Bootstrapped store (store.bootstrapped w).2 := by
    rcases bootstrap_wp hstore.toLawful (w := w) with hdone | hfailed | ⟨o, -, hfailed⟩
    · exact hdone.2
    · obtain ⟨_, _, _, _, hr, _⟩ := hfailed
      cases hr.symm.trans h
    · cases hfailed.1.symm.trans h
  refine bootstrap_settled hstore hdone.1 fun o ho => ?_
  rcases hdone.2 o ho with hgone | ⟨code, hcode, hmem⟩
  · exact hgone
  · exact bootstrap_missed hstore hcode hmem

end Again

theorem bootstrap_again_old_volume :
    (volumeStore.bootstrapped (volumeStore.bootstrapped oldVolume).2.world).2.calls.map Prod.fst =
      lookingCalls :=
  (bootstrap_again volumeStore_reliable (by decide +kernel)).2.2

end OrdersDemo
