import Mathlib.Data.List.Infix
import OrdersDemo.BootstrapStore

namespace OrdersDemo

def BootstrapState.made {W : Type} (s : BootstrapState W) (c : S3Call) : ℕ :=
  s.calls.countP fun entry => entry.1 = c

/-- The script ended with the status of a bucket that could not be made. -/
def BootstrapState.Uncreated {W : Type} (r : Shell.Ending) (s : BootstrapState W) : Prop :=
  ∃ b ∈ signalBuckets, ∃ code, code ≠ 0 ∧ r = .exit code ∧
    s.calls.getLast? = some (.createBucket b, code)

/-- The script gave an object up: after five attempts and all five pauses. -/
def BootstrapState.Unremoved {W : Type} (b k : String) (r : Shell.Ending)
    (s : BootstrapState W) : Prop :=
  r = .exit 1 ∧ s.made (.deleteObject b k) = 5 ∧ (.waitObjectNotExists b k, 0) ∉ s.calls ∧
    [1, 2, 3, 4, 5] <:+ s.slept

section Run

variable {W : Type} {store : ObjectStore W} {s : BootstrapState W}

/-- The object is gone, or the script was told that it was never there. -/
def ObjectStore.Cleared (store : ObjectStore W) (b k : String) (w : W)
    (calls : List (S3Call × ℕ)) : Prop :=
  ¬ store.object w b k ∨ ∃ code, code ≠ 0 ∧ (.headObject b k, code) ∈ calls

theorem ensureBucket_wp (hstore : store.Lawful) {bucket : String}
    (hbucket : bucket ∈ signalBuckets) :
    Shell.wp (ensureBucket store bucket) true
      (Shell.Ending.turn BootstrapState.Uncreated fun _ s => store.bucket s.world bucket) s := by
  rw [ensureBucket, Shell.wp_block_cons, Shell.wp_ifElse, aws, Shell.wp_run]
  have hhead := hstore.headBucket s.world bucket
  by_cases hcode : (store.call (.headBucket bucket) s.world).1 = 0
  · simp only [Shell.settle, hcode, Shell.go_status, ↓reduceIte, Shell.wp_jump, ne_eq,
      not_true_eq_false, and_false]
    exact hhead hcode
  · simp only [Shell.settle, Bool.false_eq_true, false_and, ↓reduceIte, Shell.go_status, hcode,
      Shell.wp_skip, Shell.block, aws, Shell.wp_run]
    generalize (store.call (.headBucket bucket) s.world).2 = w
    have hcreate := hstore.createBucket w bucket
    by_cases hmade : (store.call (.createBucket bucket) w).1 = 0
    · simp only [hmade, ne_eq, not_true_eq_false, and_false, ↓reduceIte]
      exact hcreate hmade
    · simp only [hmade, ne_eq, not_false_eq_true, and_self, ↓reduceIte, Shell.Ending.turn]
      exact ⟨bucket, hbucket, _, hmade, rfl, List.getLast?_concat⟩

theorem ensureBuckets_wp (hstore : store.Lawful) :
    Shell.wp (.forEach signalBuckets (ensureBucket store)) true
      (Shell.Ending.go BootstrapState.Uncreated fun _ s =>
        ∀ b ∈ signalBuckets, store.bucket s.world b) s := by
  refine Shell.wp_forEach (I := fun rest s => ∃ done, signalBuckets = done ++ rest ∧
    ∀ b ∈ done, store.bucket s.world b) ?_ ?_ ⟨[], rfl, by simp⟩
  · rintro bucket rest s ⟨done, hdone, hmade⟩
    have hmem : bucket ∈ signalBuckets := by
      rw [hdone]
      simp
    have hkeep : Shell.Keeps (fun s : BootstrapState W => ∀ b ∈ done, store.bucket s.world b)
        (ensureBucket store bucket) :=
      ensureBucket_keeps (J := fun w _ => ∀ b ∈ done, store.bucket w b)
        (fun w _ h b hb => hstore.keepsBucket _ w b (h b hb))
        (fun w _ h b hb => hstore.keepsBucket _ w b (h b hb))
    refine Shell.wp_mono (hkeep.wp hmade (ensureBucket_wp hstore hmem)) ?_
    rintro r s ⟨hturn, hmade⟩
    have hnext : store.bucket s.world bucket → ∃ done, signalBuckets = done ++ rest ∧
        ∀ b ∈ done, store.bucket s.world b := by
      intro hbucket
      refine ⟨done ++ [bucket], by simpa using hdone, ?_⟩
      intro b hb
      rcases List.mem_append.mp hb with hb | hb
      · exact hmade b hb
      · rwa [List.mem_singleton.mp hb]
    cases r with
    | status code => exact hnext hturn
    | cont => exact hnext hturn
    | brk =>
      obtain ⟨_, _, _, _, hr, _⟩ := hturn
      cases hr
    | _ => exact hturn
  · rintro code s ⟨done, hdone, hmade⟩
    rw [List.append_nil] at hdone
    rwa [hdone]

/-- What an attempt at an object starts from: `rest` attempts are left. -/
structure BootstrapState.Trying (s : BootstrapState W) (b k : String) (rest : List ℕ) : Prop where
  unset : s.removedObsoleteObject = 0
  deletes : s.made (.deleteObject b k) + rest.length = 5
  waits : (.waitObjectNotExists b k, 0) ∉ s.calls
  pauses : [1, 2, 3, 4, 5] <:+ s.slept ++ rest

theorem BootstrapState.Trying.next {t : BootstrapState W} {b k : String} {attempt : ℕ}
    {rest : List ℕ} (h : s.Trying b k (attempt :: rest))
    (hunset : t.removedObsoleteObject = s.removedObsoleteObject)
    (hmade : t.made (.deleteObject b k) = s.made (.deleteObject b k) + 1)
    (hwaits : (.waitObjectNotExists b k, 0) ∉ t.calls)
    (hslept : t.slept = s.slept ++ [attempt]) : t.Trying b k rest := by
  have hdeletes : s.made (.deleteObject b k) + (rest.length + 1) = 5 := h.deletes
  refine ⟨hunset.trans h.unset, by omega, hwaits, ?_⟩
  rw [hslept, List.append_assoc]
  exact h.pauses

def Untried (b k : String) (calls : List (S3Call × ℕ)) : Prop :=
  calls.countP (fun entry => entry.1 = .deleteObject b k) = 0 ∧
    (.waitObjectNotExists b k, 0) ∉ calls

theorem removeAttempt_wp (hstore : store.Lawful) {label b k : String} {attempt : ℕ}
    {rest : List ℕ} (h : s.Trying b k (attempt :: rest)) :
    Shell.wp (removeAttempt store label b k attempt) true
      (Shell.Ending.turn (fun r s => r = .status 0 ∧ s.removedObsoleteObject = 1 ∧
        ¬ store.object s.world b k) fun _ s => s.Trying b k rest) s := by
  have hretry : ∀ t : BootstrapState W, t.removedObsoleteObject = s.removedObsoleteObject →
      t.made (.deleteObject b k) = s.made (.deleteObject b k) + 1 →
      (.waitObjectNotExists b k, 0) ∉ t.calls → t.slept = s.slept →
      Shell.wp (.block [echoError ("rustfs bootstrap: retrying obsolete " ++ label ++
        " cleanup (attempt " ++ toString attempt ++ ")"), sleep attempt]) true
        (Shell.Ending.turn (fun r s => r = .status 0 ∧ s.removedObsoleteObject = 1 ∧
          ¬ store.object s.world b k) fun _ s => s.Trying b k rest) t := by
    intro t hunset hmade hwaits hslept
    rw [Shell.wp_block_cons, echoError, Shell.wp_assign, Shell.go_status, Shell.block,
      sleep, Shell.wp_assign]
    exact h.next hunset hmade hwaits (congrArg (· ++ [attempt]) hslept)
  rw [removeAttempt, Shell.wp_block_cons, Shell.wp_ifElse, Shell.wp_both, aws,
    Shell.wp_run]
  by_cases hdelete : (store.call (.deleteObject b k) s.world).1 = 0
  · simp only [Shell.settle, hdelete, Shell.go_status, ↓reduceIte, ne_eq, not_true_eq_false,
      and_false, aws, Shell.wp_run, Bool.false_eq_true, false_and]
    generalize (store.call (.deleteObject b k) s.world).2 = w
    have hgone := hstore.waitObjectNotExists w b k
    by_cases hwait : (store.call (.waitObjectNotExists b k) w).1 = 0
    · simp only [hwait, ↓reduceIte]
      exact ⟨rfl, rfl, hgone hwait⟩
    · simp only [hwait, ↓reduceIte, Shell.wp_skip, Shell.go_status]
      refine hretry _ rfl (by simp [BootstrapState.made]) ?_ rfl
      simpa [h.waits] using Ne.symm hwait
  · simp only [Shell.settle, hdelete, Shell.go_status, ↓reduceIte, ne_eq, Bool.false_eq_true,
      false_and, Shell.wp_skip]
    exact hretry _ rfl (by simp [BootstrapState.made]) (by simp [h.waits]) rfl

theorem removeAttempts_wp (hstore : store.Lawful) {label b k : String}
    (h : s.Trying b k [1, 2, 3, 4, 5]) :
    Shell.wp (.forEach [1, 2, 3, 4, 5] (removeAttempt store label b k)) true
      (fun r s => (∃ code, r = .status code) ∧
        (s.removedObsoleteObject = 1 ∧ ¬ store.object s.world b k ∨ s.Trying b k [])) s := by
  refine Shell.wp_forEach (I := fun rest (s : BootstrapState W) => s.Trying b k rest) ?_
    (fun code s hs => ⟨⟨code, rfl⟩, .inr hs⟩) h
  intro attempt rest s hs
  refine Shell.wp_mono (removeAttempt_wp hstore hs) fun r s hr => ?_
  cases r with
  | status code => exact hr
  | cont => exact hr
  | brk => exact ⟨⟨0, rfl⟩, .inl hr.2⟩
  | _ => cases hr.1

/-- What a call of `delete_obsolete_object` comes to. -/
theorem deleteObsoleteObject_wp (hstore : store.Lawful) {label b k : String}
    (hdeletes : s.made (.deleteObject b k) = 0) (hwaits : (.waitObjectNotExists b k, 0) ∉ s.calls) :
    Shell.wp (deleteObsoleteObject store label b k) true
      (Shell.Ending.go (BootstrapState.Unremoved b k) fun _ s =>
        store.Cleared b k s.world s.calls) s := by
  rw [deleteObsoleteObject, Shell.wp_func, Shell.wp_block_cons, Shell.wp_ifElse,
    Shell.wp_neg, aws, Shell.wp_run]
  simp only [Shell.settle, Bool.false_eq_true, false_and, ↓reduceIte, Shell.go_status]
  by_cases hhead : (store.call (.headObject b k) s.world).1 = 0
  · simp only [hhead, ↓reduceIte, Nat.one_ne_zero, Shell.wp_skip, Shell.go_status]
    rw [Shell.wp_block_cons, setRemoved, Shell.wp_assign, Shell.go_status,
      Shell.wp_block_cons]
    generalize (store.call (.headObject b k) s.world).2 = w
    have htrying : BootstrapState.Trying { s with
        world := w, removedObsoleteObject := 0,
        calls := s.calls ++ [(.headObject b k, 0)] } b k [1, 2, 3, 4, 5] := by
      refine ⟨rfl, ?_, by simpa using hwaits, List.suffix_append _ _⟩
      simpa [BootstrapState.made] using hdeletes
    refine Shell.wp_mono (removeAttempts_wp hstore htrying) ?_
    rintro _ s ⟨⟨code, rfl⟩, ⟨hset, hgone⟩ | hs⟩
    · rw [Shell.go_status, Shell.block, Shell.wp_ifElse, Shell.wp_test, hset]
      exact Or.inl hgone
    · have hpauses : [1, 2, 3, 4, 5] <:+ s.slept := by simpa using hs.pauses
      rw [Shell.go_status, Shell.block, Shell.wp_ifElse, Shell.wp_test, hs.unset]
      exact ⟨rfl, hs.deletes, hs.waits, hpauses⟩
  · simp only [hhead, ↓reduceIte, Shell.wp_jump]
    exact Or.inr ⟨_, hhead, List.mem_append_right _ (List.mem_singleton.mpr rfl)⟩

theorem keepsBuckets (hstore : store.Lawful) {c : S3Call} :
    c.Keeps store fun w _ => ∀ b ∈ signalBuckets, store.bucket w b :=
  fun w _ h b hb => hstore.keepsBucket c w b (h b hb)

theorem keepsCleared (hstore : store.Lawful) {b k : String} {c : S3Call} :
    c.Keeps store (store.Cleared b k) := by
  rintro w calls (hgone | ⟨code, hcode, hhead⟩)
  · exact Or.inl fun h => hgone (hstore.makesObject c w b k h)
  · exact Or.inr ⟨code, hcode, List.mem_append_left _ hhead⟩

theorem keepsUntried {b k : String} {c : S3Call} (hdelete : c ≠ .deleteObject b k)
    (hwait : c ≠ .waitObjectNotExists b k) :
    c.Keeps store fun _ calls => Untried b k calls := by
  rintro w calls ⟨hdeletes, hwaits⟩
  refine ⟨?_, ?_⟩
  · simpa [hdelete] using hdeletes
  · simpa [hwaits] using fun h => absurd h.symm hwait

theorem forall_obsoleteObjects {P : String × String → Prop} : (∀ o ∈ obsoleteObjects, P o) ↔
    P (obsoleteLogsManifestBucket, obsoleteLogsManifestKey) ∧
      P (obsoleteLogsManifestBucket, obsoleteLogsShardCatalogKey) := by
  simp [obsoleteObjects]

theorem ensureBuckets_keeps_untried :
    Shell.Keeps (fun s : BootstrapState W => ∀ o ∈ obsoleteObjects, Untried o.1 o.2 s.calls)
      (.forEach signalBuckets (ensureBucket store)) := by
  have hcall : ∀ c : S3Call, (∀ o ∈ obsoleteObjects,
      c ≠ .deleteObject o.1 o.2 ∧ c ≠ .waitObjectNotExists o.1 o.2) →
      c.Keeps store fun _ calls => ∀ o ∈ obsoleteObjects, Untried o.1 o.2 calls :=
    fun c hc w calls h o ho => keepsUntried (hc o ho).1 (hc o ho).2 w calls (h o ho)
  exact .forEach fun b _ => ensureBucket_keeps (hcall _ (by simp))
    (hcall _ (by simp))

theorem deleteManifest_keeps (hstore : store.Lawful) {label : String} :
    Shell.Keeps (fun s : BootstrapState W => (∀ b ∈ signalBuckets, store.bucket s.world b) ∧
        Untried obsoleteLogsManifestBucket obsoleteLogsShardCatalogKey s.calls)
      (deleteObsoleteObject store label obsoleteLogsManifestBucket obsoleteLogsManifestKey) := by
  have hcall : ∀ c : S3Call,
      c ≠ .deleteObject obsoleteLogsManifestBucket obsoleteLogsShardCatalogKey →
      c ≠ .waitObjectNotExists obsoleteLogsManifestBucket obsoleteLogsShardCatalogKey →
      c.Keeps store fun w calls => (∀ b ∈ signalBuckets, store.bucket w b) ∧
        Untried obsoleteLogsManifestBucket obsoleteLogsShardCatalogKey calls :=
    fun c hdelete hwait w calls h =>
      ⟨keepsBuckets hstore w calls h.1, keepsUntried hdelete hwait w calls h.2⟩
  exact deleteObsoleteObject_keeps (hcall _ nofun nofun) (hcall _ (by decide) nofun)
    (hcall _ nofun (by decide))

theorem deleteCatalog_keeps (hstore : store.Lawful) {label : String} :
    Shell.Keeps (fun s : BootstrapState W => (∀ b ∈ signalBuckets, store.bucket s.world b) ∧
        store.Cleared obsoleteLogsManifestBucket obsoleteLogsManifestKey s.world s.calls)
      (deleteObsoleteObject store label obsoleteLogsManifestBucket
        obsoleteLogsShardCatalogKey) := by
  have hcall : ∀ c : S3Call, c.Keeps store fun w calls =>
      (∀ b ∈ signalBuckets, store.bucket w b) ∧
        store.Cleared obsoleteLogsManifestBucket obsoleteLogsManifestKey w calls :=
    fun c w calls h => ⟨keepsBuckets hstore w calls h.1, keepsCleared hstore w calls h.2⟩
  exact deleteObsoleteObject_keeps (hcall _) (hcall _) (hcall _)

/-- What the script is for. -/
def Bootstrapped (store : ObjectStore W) (s : BootstrapState W) : Prop :=
  (∀ b ∈ signalBuckets, store.bucket s.world b) ∧
    ∀ o ∈ obsoleteObjects, store.Cleared o.1 o.2 s.world s.calls

theorem bootstrap_wp (hstore : store.Lawful) {w : W} :
    Shell.wp (bootstrap store) true (fun r s =>
      r = .status 0 ∧ Bootstrapped store s ∨ BootstrapState.Uncreated r s ∨
        ∃ o ∈ obsoleteObjects, BootstrapState.Unremoved o.1 o.2 r s) { world := w } := by
  have huntried : ∀ o ∈ obsoleteObjects, Untried o.1 o.2 [] := fun o _ => ⟨rfl, List.not_mem_nil⟩
  rw [bootstrap, Shell.wp_block_cons]
  refine Shell.wp_mono (ensureBuckets_keeps_untried.wp huntried (ensureBuckets_wp hstore)) ?_
  rintro r s ⟨hready, huntried⟩
  cases r with
  | status code =>
    obtain ⟨hmanifest, hcatalog⟩ := forall_obsoleteObjects.mp huntried
    rw [Shell.go_status, Shell.wp_block_cons]
    refine Shell.wp_mono ((deleteManifest_keeps hstore).wp ⟨hready, hcatalog⟩
      (deleteObsoleteObject_wp hstore hmanifest.1 hmanifest.2)) ?_
    rintro r s ⟨hmanifest, hready, hcatalog⟩
    cases r with
    | status code =>
      rw [Shell.go_status, Shell.wp_block_cons]
      refine Shell.wp_mono ((deleteCatalog_keeps hstore).wp ⟨hready, hmanifest⟩
        (deleteObsoleteObject_wp hstore hcatalog.1 hcatalog.2)) ?_
      rintro r s ⟨hcatalog, hready, hmanifest⟩
      cases r with
      | status code =>
        exact Or.inl ⟨rfl, hready, forall_obsoleteObjects.mpr ⟨hmanifest, hcatalog⟩⟩
      | _ => exact Or.inr (Or.inr ⟨_, .tail _ (.head _), hcatalog⟩)
    | _ => exact Or.inr (Or.inr ⟨_, .head _, hmanifest⟩)
  | _ => exact Or.inr (Or.inl hready)

end Run

end OrdersDemo
