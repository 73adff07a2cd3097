import OrdersDemo.MetricLabels
import OrdersDemo.TopicAccounting

namespace OrdersDemo

def updatesOf (c : String) (updates : List (String × ℤ)) : List ℤ :=
  (updates.filter (·.1 = c)).map Prod.snd

/-- The key of a record as the topology reads it. -/
def TopicEntry.streamKey (e : TopicEntry) : Option String :=
  e.record.key.bind String.fromUTF8?

/-- The records of a category. A record without a key is of none. -/
def recordsOf (c : String) (log : List TopicEntry) : ℕ :=
  (log.filterMap TopicEntry.streamKey).count c

/-- The streams library reads a record, or hands an update of its table of counts to `peek`. -/
inductive StreamEvent where
  | read (entry : TopicEntry)
  | forward (category : String) (count : ℤ)

/-- The stream role: what its library has read, the categories with a record after their last
update, its metrics, and what it has sent to the topic that `KRABKA_DEMO_OUTPUT_TOPIC` names. -/
structure StreamState where
  read : List TopicEntry := []
  unsent : Finset String := ∅
  metrics : DemoMetrics := {}
  output : List (String × ℤ) := []

namespace StreamState

/-- `peek` and `to`, on an update of the table. The span of `peek` is left out. -/
def forward (s : StreamState) (category : String) (count : ℤ) : StreamState :=
  { s with
    unsent := s.unsent.erase category
    metrics := s.metrics.recordStream category count
    output := s.output ++ [(category, count)] }

def step (s : StreamState) : StreamEvent → StreamState
  | .read entry =>
    { s with read := s.read ++ [entry], unsent := s.unsent ∪ entry.streamKey.toFinset }
  | .forward category count => s.forward category count

/-- The streams library counts: an update carries how many records of its category were read. -/
def Counts (s : StreamState) : StreamEvent → Prop
  | .read _ => True
  | .forward category count => count = recordsOf category s.read

end StreamState

/-- The topology of `run_stream`. When the library forwards an update is up to it. -/
def orderCounts : Machine StreamState StreamEvent where
  init := {}
  step := StreamState.step

/-- What `krabka_demo_stream_category_count` shows. -/
def DemoMetrics.categoryCount (m : DemoMetrics) (category : String) : ℤ :=
  (m.streamCategoryCount.lookup ⟨category⟩).getD 0

/-- The records that the topology has read are the first ones of each partition, each once. -/
def StreamReads (log read : List TopicEntry) : Prop :=
  ∀ p, read.filter (·.partition = p) <+: log.filter (·.partition = p)

section Streams

theorem updatesOf_append (c : String) (xs ys : List (String × ℤ)) :
    updatesOf c (xs ++ ys) = updatesOf c xs ++ updatesOf c ys := by
  rw [updatesOf, List.filter_append, List.map_append]
  rfl

theorem updatesOf_singleton (c : String) (u : String × ℤ) :
    updatesOf c [u] = if u.1 = c then [u.2] else [] := by
  by_cases h : u.1 = c <;> simp [updatesOf, h]

theorem runStream_streamRecords (updates : List (String × ℤ)) :
    ((runStream {}).run updates).streamRecords = updates.length := by
  induction updates using List.reverseRecOn with
  | nil => rfl
  | append_singleton updates u ih =>
    have hstep : (runStream {}).run (updates ++ [u]) =
        ((runStream {}).run updates).recordStream u.1 u.2 :=
      (runStream {}).run_append updates [u]
    rw [hstep, List.length_append, List.length_singleton, ← ih]
    rfl

theorem runStream_categoryCount (updates : List (String × ℤ)) (c : String) :
    ((runStream {}).run updates).categoryCount c = ((updatesOf c updates).getLast?).getD 0 := by
  induction updates using List.reverseRecOn with
  | nil => rfl
  | append_singleton updates u ih =>
    have hstep : (runStream {}).run (updates ++ [u]) =
        ((runStream {}).run updates).recordStream u.1 u.2 :=
      (runStream {}).run_append updates [u]
    rw [hstep, updatesOf_append, updatesOf_singleton]
    unfold DemoMetrics.categoryCount DemoMetrics.recordStream
    by_cases h : u.1 = c
    · subst h
      rw [if_pos rfl, List.getLast?_concat, Family.lookup_update]
    · have hne : CategoryLabel.mk c ≠ CategoryLabel.mk u.1 := fun heq =>
        h (CategoryLabel.mk.inj heq).symm
      rw [if_neg h, List.append_nil, Family.lookup_update_ne hne]
      exact ih

/-- What the stream role shows and sends on of a category: updates that never fall, none of them
above the records read, and the last one not below them when it came after the last record. -/
structure StreamInv (s : StreamState) : Prop where
  metrics : s.metrics = (runStream {}).run s.output
  grows : ∀ c, (updatesOf c s.output).Pairwise (· ≤ ·)
  bounded : ∀ c, ∀ n ∈ updatesOf c s.output, 0 ≤ n ∧ n ≤ recordsOf c s.read
  settled : ∀ c ∉ s.unsent, 0 < recordsOf c s.read →
    (updatesOf c s.output).getLast? = some (recordsOf c s.read : ℤ)

theorem recordsOf_concat (c : String) (log : List TopicEntry) (e : TopicEntry) :
    recordsOf c (log ++ [e]) = recordsOf c log + if e.streamKey = some c then 1 else 0 := by
  rw [recordsOf, List.filterMap_append, List.count_append]
  cases hk : e.streamKey with
  | none => simp [hk, recordsOf]
  | some k =>
    by_cases h : k = c <;> simp [hk, h, recordsOf]

variable {s : StreamState}

theorem StreamInv.read (h : StreamInv s) (entry : TopicEntry) :
    StreamInv (s.step (.read entry)) := by
  refine ⟨h.metrics, h.grows, fun c n hn => ?_, fun c hc hpos => ?_⟩
  · obtain ⟨hzero, hle⟩ := h.bounded c n hn
    refine ⟨hzero, hle.trans ?_⟩
    change (recordsOf c s.read : ℤ) ≤ recordsOf c (s.read ++ [entry])
    rw [recordsOf_concat]
    omega
  · obtain ⟨hsent, hkey⟩ := not_or.mp (mt Finset.mem_union.mpr hc)
    have hne : entry.streamKey ≠ some c := fun heq => hkey (by simp [heq])
    have hsame : recordsOf c (s.read ++ [entry]) = recordsOf c s.read := by
      rw [recordsOf_concat, if_neg hne, Nat.add_zero]
    change 0 < recordsOf c (s.read ++ [entry]) at hpos
    change _ = some (recordsOf c (s.read ++ [entry]) : ℤ)
    rw [hsame] at hpos ⊢
    exact h.settled c hsent hpos

theorem StreamInv.forward (h : StreamInv s) (category : String) :
    StreamInv (s.forward category (recordsOf category s.read)) := by
  have hupdates : ∀ c, updatesOf c (s.output ++ [(category, (recordsOf category s.read : ℤ))]) =
      updatesOf c s.output ++ if category = c then [(recordsOf category s.read : ℤ)] else [] :=
    fun c => by rw [updatesOf_append, updatesOf_singleton]
  refine ⟨?_, fun c => ?_, fun c n hn => ?_, fun c hc hpos => ?_⟩
  · change s.metrics.recordStream _ _ = _
    rw [h.metrics]
    exact ((runStream {}).run_append s.output [(category, (recordsOf category s.read : ℤ))]).symm
  · change (updatesOf c (s.output ++ _)).Pairwise _
    rw [hupdates]
    by_cases heq : category = c
    · subst heq
      rw [if_pos rfl]
      refine List.pairwise_append.mpr ⟨h.grows category, List.pairwise_singleton _ _, ?_⟩
      intro n hn n' hn'
      obtain rfl := List.mem_singleton.mp hn'
      exact (h.bounded category n hn).2
    · rw [if_neg heq, List.append_nil]
      exact h.grows c
  · change n ∈ updatesOf c (s.output ++ _) at hn
    rw [hupdates] at hn
    rcases List.mem_append.mp hn with hn | hn
    · exact h.bounded c n hn
    · by_cases heq : category = c
      · subst heq
        rw [if_pos rfl] at hn
        obtain rfl := List.mem_singleton.mp hn
        exact ⟨Int.natCast_nonneg _, le_rfl⟩
      · rw [if_neg heq] at hn
        cases hn
  · change (updatesOf c (s.output ++ _)).getLast? = _
    rw [hupdates]
    by_cases heq : category = c
    · subst heq
      rw [if_pos rfl, List.getLast?_concat]
      rfl
    · have hsent : c ∉ s.unsent := fun hmem =>
        hc (Finset.mem_erase.mpr ⟨Ne.symm heq, hmem⟩)
      rw [if_neg heq, List.append_nil]
      exact h.settled c hsent hpos

theorem orderCounts_inv {stream : List StreamEvent}
    (hcounts : orderCounts.Meets StreamState.Counts orderCounts.init stream) :
    StreamInv (orderCounts.run stream) := by
  refine orderCounts.runFrom_invariant_of_meets (I := StreamInv) (fun s e hc h => ?_) ?_ hcounts
  · cases e with
    | read entry => exact h.read entry
    | forward category count =>
      obtain rfl : count = recordsOf category s.read := hc
      exact h.forward category
  · exact ⟨rfl, fun _ => .nil, fun _ _ hn => absurd hn List.not_mem_nil,
      fun _ _ hpos => absurd hpos (Nat.lt_irrefl 0)⟩

/-- What the stream role shows of a category is what its library has forwarded last. -/
theorem StreamInv.shown (h : StreamInv s) (c : String) :
    s.metrics.categoryCount c = ((updatesOf c s.output).getLast?).getD 0 ∧
      s.metrics.categoryCount c ≤ recordsOf c s.read ∧
      (c ∉ s.unsent → s.metrics.categoryCount c = recordsOf c s.read) := by
  have hshown := runStream_categoryCount s.output c
  rw [← h.metrics] at hshown
  have hrange : 0 ≤ ((updatesOf c s.output).getLast?).getD 0 ∧
      ((updatesOf c s.output).getLast?).getD 0 ≤ recordsOf c s.read := by
    cases hlast : (updatesOf c s.output).getLast? with
    | none => simp
    | some n => exact h.bounded c n (List.mem_of_getLast? hlast)
  refine ⟨hshown, by rw [hshown]; exact hrange.2, fun hc => ?_⟩
  rcases Nat.eq_zero_or_pos (recordsOf c s.read) with hzero | hpos
  · rw [hshown]
    omega
  · rw [hshown, h.settled c hc hpos]
    rfl

end Streams

section Topic

variable {E P : Type} {kafka : Kafka E} {m : ℕ+} {cli : ProcessCli}
  {s : DemoState kafka cli.inputTopic P}

theorem StreamReads.subperm {log read : List TopicEntry} (h : StreamReads log read) :
    read.Subperm log :=
  History.subperm_of_fibres (f := TopicEntry.partition) fun p => (h p).sublist

theorem StreamReads.recordsOf_le {log read : List TopicEntry} (h : StreamReads log read)
    (c : String) : recordsOf c read ≤ recordsOf c log := by
  obtain ⟨l, hl, hsublist⟩ := h.subperm
  have hperm : recordsOf c l = recordsOf c read := (hl.filterMap TopicEntry.streamKey).count_eq c
  rw [← hperm]
  exact (hsublist.filterMap TopicEntry.streamKey).count_le c

/-- The topology reads the category of the order that a record carries. -/
theorem TopicInv.streamKey (h : TopicInv s) (hr : RunInv m s.producer)
    (hd : DeliveriesInv s.producer) {e : TopicEntry} (he : e ∈ s.log) :
    e.streamKey = some (orderKey e.index) := by
  obtain ⟨traceHeaders, hrecord⟩ := h.entry hr hd he
  rw [TopicEntry.streamKey, hrecord]
  exact fromUTF8?_eq_some.mpr rfl

theorem TopicInv.recordsOf_log (h : TopicInv s) (hr : RunInv m s.producer)
    (hd : DeliveriesInv s.producer) (c : String) :
    recordsOf c s.log = s.log.countP (orderKey ·.index = c) := by
  have hkeys : s.log.filterMap TopicEntry.streamKey = s.log.map fun e => orderKey e.index :=
    List.filterMap_eq_map_iff_forall_eq_some.mpr fun e he => h.streamKey hr hd he
  rw [recordsOf, hkeys, List.count, List.countP_map]
  exact List.countP_congr fun e _ => by simp

/-- Each record is one of exactly one category. -/
theorem sum_categories (log : List TopicEntry) :
    (categories.map fun c => log.countP (orderKey ·.index = c)).sum = log.length := by
  have hcount : ∀ c, log.countP (orderKey ·.index = c) =
      Multiset.count c (log.map fun e => orderKey e.index) := by
    intro c
    rw [Multiset.coe_count, List.count, List.countP_map]
    rfl
  have hmem : ∀ c ∈ (↑(log.map fun e => orderKey e.index) : Multiset String),
      c ∈ categories.toFinset := by
    intro c hc
    obtain ⟨e, -, rfl⟩ := List.mem_map.mp (Multiset.mem_coe.mp hc)
    exact List.mem_toFinset.mpr (orderAt_category_mem e.index)
  simp only [hcount]
  rw [← List.sum_toFinset _ (by decide : categories.Nodup), Multiset.sum_count_eq_card hmem,
    Multiset.coe_card, List.length_map]

end Topic

/-- What the three roles count, end to end, for a streams library that reads the topic once and in
order and counts what it has read: the stream role never shows more orders of a category than the
topic has, and what it shows of a category never falls; once the topic is read and every category
updated since its last record it shows the topic by category, so that its counts differ from the
producer's by the failed attempts at most, and not at all when none failed. -/
theorem order_counts {E P : Type} (kafka : Kafka E) (m : ℕ+) (cli : ProcessCli)
    (events : List (DemoEvent E P))
    (hk : (demo kafka P m cli).Meets kafka.Keeps (demo kafka P m cli).init events)
    (stream : List StreamEvent)
    (hcounts : orderCounts.Meets StreamState.Counts orderCounts.init stream)
    (hread : StreamReads ((demo kafka P m cli).run events).log (orderCounts.run stream).read) :
    let s := (demo kafka P m cli).run events
    let producer : DemoMetrics := s.producer.world
    let t := orderCounts.run stream
    t.metrics.streamRecords = t.output.length ∧
    (∀ c, (updatesOf c t.output).Pairwise (· ≤ ·) ∧
      t.metrics.categoryCount c = ((updatesOf c t.output).getLast?).getD 0 ∧
      t.metrics.categoryCount c ≤ s.log.countP (orderKey ·.index = c)) ∧
    (t.unsent = ∅ → t.read.length = s.log.length →
      (∀ c, t.metrics.categoryCount c = s.log.countP (orderKey ·.index = c)) ∧
      (∀ c, ((acknowledgedOrders s.producer.trace).countP (·.category = c) : ℤ) ≤
        t.metrics.categoryCount c) ∧
      ∀ report, s.producer.phase = .returned (.ok report) →
        (categories.map t.metrics.categoryCount).sum ≤
          (producer.ordersProduced.total + producer.errors .producerSend : ℤ) ∧
        (producer.errors .producerSend = 0 →
          ∀ c, t.metrics.categoryCount c =
            (acknowledgedOrders s.producer.trace).countP (·.category = c))) := by
  intro s producer t
  obtain ⟨hr, hd, h⟩ := demo_topicInv hk
  have hstream : StreamInv t := orderCounts_inv hcounts
  refine ⟨?_, fun c => ?_, fun hsettled hall => ?_⟩
  · rw [hstream.metrics]
    exact runStream_streamRecords t.output
  · obtain ⟨hlast, hle, -⟩ := hstream.shown c
    have hlog := hread.recordsOf_le c
    rw [h.recordsOf_log hr hd] at hlog
    exact ⟨hstream.grows c, hlast, hle.trans (by exact_mod_cast hlog)⟩
  have hshown : ∀ c, t.metrics.categoryCount c = s.log.countP (orderKey ·.index = c) := by
    intro c
    have hperm : t.read.Perm s.log := hread.subperm.perm_of_length_le hall.ge
    have hsame : recordsOf c t.read = recordsOf c s.log :=
      (hperm.filterMap TopicEntry.streamKey).count_eq c
    rw [(hstream.shown c).2.2 (by simp [hsettled]), hsame, h.recordsOf_log hr hd]
  have hacked := h.acknowledged_subperm hr hd
  have horders : ∀ c, (acknowledgedOrders s.producer.trace).countP (·.category = c) =
      (acknowledgedIndices s.producer.trace).countP fun i => orderKey i = c := by
    intro c
    rw [acknowledgedOrders_eq, List.countP_map]
    rfl
  have hlog : ∀ c, s.log.countP (orderKey ·.index = c) =
      (s.log.map TopicEntry.index).countP fun i => orderKey i = c := by
    intro c
    rw [List.countP_map]
    rfl
  refine ⟨hshown, fun c => ?_, fun report hphase => ?_⟩
  · rw [hshown, horders, hlog]
    exact_mod_cast hacked.countP_le _
  · have hm : ProducerMetrics producer s.producer.trace := demo_producerMetrics events
    have hcalls : calls s.producer.trace =
        producer.ordersProduced.total + producer.errors .producerSend :=
      calls_of_returned hr hd hm hphase
    have hlength : s.log.length ≤ calls s.producer.trace := h.length_le hr
    have hproduced := ordersProduced_total hm
    refine ⟨?_, fun hnone c => ?_⟩
    · have hsum : (categories.map t.metrics.categoryCount).sum = (s.log.length : ℤ) := by
        rw [← sum_categories s.log, Nat.cast_list_sum, List.map_map]
        exact congrArg List.sum (List.map_congr_left fun c _ => hshown c)
      rw [hsum]
      omega
    · have hfewer : (s.log.map TopicEntry.index).length ≤
          (acknowledgedIndices s.producer.trace).length := by
        rw [List.length_map, ← hproduced]
        omega
      have hsame := hacked.perm_of_length_le hfewer
      rw [hshown, horders, hlog, hsame.countP_eq]

/-- The topology counts all three records, and forwards two of its counts only. -/
def retriedStream : List StreamEvent :=
  [.read (orderIdEntry 0 0), .read (orderIdEntry 0 1), .forward "books" 2,
    .read (orderIdEntry 5 2), .forward "books" 3]

theorem order_counts_retried :
    (orderCounts.run retriedStream).metrics.categoryCount "books" =
      (retried 23).log.countP (orderKey ·.index = "books") := by
  have hlog := retried_log.2.2
  have hrecords : recordsOf "books" [orderIdEntry 0 0, orderIdEntry 0 1] = 2 ∧
      recordsOf "books" [orderIdEntry 0 0, orderIdEntry 0 1, orderIdEntry 5 2] = 3 := by
    decide +kernel
  have hcounts : orderCounts.Meets StreamState.Counts orderCounts.init retriedStream :=
    ⟨trivial, trivial, congrArg Nat.cast hrecords.1.symm, trivial,
      congrArg Nat.cast hrecords.2.symm, trivial⟩
  have hread : StreamReads (retried 23).log (orderCounts.run retriedStream).read := by
    rw [hlog]
    exact fun p => List.prefix_refl _
  obtain ⟨-, -, hall⟩ := order_counts orderIdKafka 5 idleCli retriedEvents retriedEvents_keeps
    retriedStream hcounts hread
  have hlength : (orderCounts.run retriedStream).read.length = (retried 23).log.length :=
    congrArg List.length hlog.symm
  exact (hall (by decide +kernel) hlength).1 "books"

end OrdersDemo
