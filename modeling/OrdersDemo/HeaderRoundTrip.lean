import OrdersDemo.Pipeline

namespace OrdersDemo

/-- Decoding is the inverse of encoding, and fails on all other bytes. -/
theorem fromUTF8?_eq_some {bytes : ByteArray} {text : String} :
    String.fromUTF8? bytes = some text ↔ bytes = text.toUTF8 := by
  unfold String.fromUTF8?
  constructor
  · intro h
    split at h
    next hvalid =>
      have htext : String.fromUTF8 bytes hvalid = text := Option.some.inj h
      rw [← htext]
      rfl
    next => cases h
  · rintro rfl
    have hvalid : text.toUTF8.IsValidUTF8 := text.isValidUTF8
    rw [dif_pos hvalid]
    rfl

theorem isSome_fromUTF8? {bytes : ByteArray} :
    (String.fromUTF8? bytes).isSome ↔ bytes.IsValidUTF8 := by
  unfold String.fromUTF8?
  split
  next h => exact iff_of_true rfl h
  next h => exact iff_of_false Bool.false_ne_true h

/-- The reading of one header. -/
def Header.text (header : Header) : Option String :=
  header.value.bind String.fromUTF8?

theorem Header.text_eq_some {header : Header} {text : String} :
    header.text = some text ↔ header.value = some text.toUTF8 := by
  rw [Header.text, Option.bind_eq_some_iff]
  simp only [fromUTF8?_eq_some]
  constructor
  · rintro ⟨bytes, hvalue, rfl⟩
    exact hvalue
  · intro hvalue
    exact ⟨text.toUTF8, hvalue, rfl⟩

theorem Header.isSome_text {header : Header} :
    header.text.isSome ↔ ∃ bytes, header.value = some bytes ∧ bytes.IsValidUTF8 := by
  cases h : header.value with
  | none => simp [Header.text, h]
  | some bytes => simpa [Header.text, h] using isSome_fromUTF8?

theorem headerValue_cons_self {header : Header} {headers : List Header} {name : String}
    (h : header.key = name) : headerValue (header :: headers) name = header.text := by
  unfold headerValue
  rw [List.find?_cons_of_pos (by simpa using h)]
  rfl

theorem headerValue_cons_ne {header : Header} {headers : List Header} {name : String}
    (h : header.key ≠ name) : headerValue (header :: headers) name = headerValue headers name := by
  unfold headerValue
  rw [List.find?_cons_of_neg (by simpa using h)]

/-- Headers of other names in front make no difference. -/
theorem headerValue_append {before headers : List Header} {name : String}
    (h : ∀ header ∈ before, header.key ≠ name) :
    headerValue (before ++ headers) name = headerValue headers name := by
  induction before with
  | nil => rfl
  | cons header before ih =>
    have hhead := h header List.mem_cons_self
    rw [List.cons_append, headerValue_cons_ne hhead]
    exact ih fun other hother => h other (List.mem_cons_of_mem header hother)

theorem headerValue_first {before after : List Header} {header : Header} {name : String}
    (h : ∀ other ∈ before, other.key ≠ name) (hkey : header.key = name) :
    headerValue (before ++ header :: after) name = header.text := by
  rw [headerValue_append h, headerValue_cons_self hkey]

theorem headerValue_none {headers : List Header} {name : String}
    (h : ∀ header ∈ headers, header.key ≠ name) : headerValue headers name = none := by
  rw [← List.append_nil headers, headerValue_append h]
  rfl

def traceHeader (pair : String × String) : Header :=
  ⟨pair.1, some pair.2.toUTF8⟩

theorem traceHeader_text (pair : String × String) : (traceHeader pair).text = some pair.2 :=
  Header.text_eq_some.mpr rfl

/-- The headers that `order_headers` adds itself. -/
def businessHeaders (order : Order) : List Header :=
  [⟨"x-demo-region", some order.region.toUTF8⟩, ⟨"x-demo-tier", some order.customerTier.toUTF8⟩]

theorem orderHeaders_eq (traceHeaders : List (String × String)) (order : Order) :
    orderHeaders traceHeaders order = traceHeaders.map traceHeader ++ businessHeaders order := rfl

section RoundTrip

variable {traceHeaders : List (String × String)} {order : Order} {name : String}

theorem headerValue_orderHeaders_of_not_mem (h : ∀ pair ∈ traceHeaders, pair.1 ≠ name) :
    headerValue (orderHeaders traceHeaders order) name =
      headerValue (businessHeaders order) name := by
  rw [orderHeaders_eq]
  apply headerValue_append
  intro header hheader
  obtain ⟨pair, hpair, rfl⟩ := List.mem_map.mp hheader
  exact h pair hpair

theorem headerValue_region : headerValue (businessHeaders order) "x-demo-region" =
    some order.region := by
  rw [businessHeaders, headerValue_cons_self rfl]
  exact Header.text_eq_some.mpr rfl

theorem headerValue_tier : headerValue (businessHeaders order) "x-demo-tier" =
    some order.customerTier := by
  have hregion : "x-demo-region" ≠ "x-demo-tier" := by decide
  rw [businessHeaders, headerValue_cons_ne hregion, headerValue_cons_self rfl]
  exact Header.text_eq_some.mpr rfl

theorem headerValue_orderHeaders_first {before after : List (String × String)}
    {pair : String × String} (h : ∀ other ∈ before, other.1 ≠ pair.1) :
    headerValue (orderHeaders (before ++ pair :: after) order) pair.1 = some pair.2 := by
  have hsplit : orderHeaders (before ++ pair :: after) order =
      before.map traceHeader ++
        traceHeader pair :: (after.map traceHeader ++ businessHeaders order) := by
    rw [orderHeaders_eq, List.map_append, List.map_cons, List.append_assoc, List.cons_append]
  have hbefore : ∀ header ∈ before.map traceHeader, header.key ≠ pair.1 := by
    intro header hheader
    obtain ⟨other, hother, rfl⟩ := List.mem_map.mp hheader
    exact h other hother
  rw [hsplit]
  exact (headerValue_first hbefore rfl).trans (traceHeader_text pair)

theorem continueTrace_orderHeaders :
    continueTrace (orderHeaders traceHeaders order) =
      traceHeaders.map (fun pair => (pair.1, pair.2.toUTF8)) ++
        [("x-demo-region", order.region.toUTF8), ("x-demo-tier", order.customerTier.toUTF8)] := by
  rw [orderHeaders_eq, continueTrace, List.map_append, List.map_map]
  rfl

end RoundTrip

/-- The producer's headers come back from both readers of the consumer, and a reader of one header
looks at nothing but the first header of that name. -/
theorem header_round_trip (order : Order) (traceHeaders : List (String × String))
    (foreign : ∀ pair ∈ traceHeaders, pair.1 ≠ "x-demo-region" ∧ pair.1 ≠ "x-demo-tier") :
    headerValue (orderHeaders traceHeaders order) "x-demo-region" = some order.region ∧
      headerValue (orderHeaders traceHeaders order) "x-demo-tier" = some order.customerTier ∧
      (∀ before pair after, traceHeaders = before ++ pair :: after →
        (∀ other ∈ before, other.1 ≠ pair.1) →
        headerValue (orderHeaders traceHeaders order) pair.1 = some pair.2) ∧
      (∀ name, (∀ pair ∈ traceHeaders, pair.1 ≠ name) → name ≠ "x-demo-region" →
        name ≠ "x-demo-tier" → headerValue (orderHeaders traceHeaders order) name = none) ∧
      continueTrace (orderHeaders traceHeaders order) =
        traceHeaders.map (fun pair => (pair.1, pair.2.toUTF8)) ++
          [("x-demo-region", order.region.toUTF8), ("x-demo-tier", order.customerTier.toUTF8)] ∧
      (∀ headers name, (∀ header ∈ headers, header.key ≠ name) →
        headerValue headers name = none) ∧
      ∀ (before after : List Header) (header : Header),
        (∀ other ∈ before, other.key ≠ header.key) →
        (∀ after', headerValue (before ++ header :: after) header.key =
          headerValue (header :: after') header.key) ∧
        ((headerValue (before ++ header :: after) header.key).isSome ↔
          ∃ bytes, header.value = some bytes ∧ bytes.IsValidUTF8) ∧
        ∀ text, headerValue (before ++ header :: after) header.key = some text →
          header.value = some text.toUTF8 := by
  refine ⟨?_, ?_, ?_, ?_, continueTrace_orderHeaders, fun _ _ => headerValue_none, ?_⟩
  · rw [headerValue_orderHeaders_of_not_mem fun pair hpair => (foreign pair hpair).1]
    exact headerValue_region
  · rw [headerValue_orderHeaders_of_not_mem fun pair hpair => (foreign pair hpair).2]
    exact headerValue_tier
  · rintro before pair after rfl hfirst
    exact headerValue_orderHeaders_first hfirst
  · intro name hname hregion htier
    rw [headerValue_orderHeaders_of_not_mem hname]
    apply headerValue_none
    intro header hheader
    simp only [businessHeaders, List.mem_cons, List.not_mem_nil, or_false] at hheader
    rcases hheader with rfl | rfl
    · exact hregion.symm
    · exact htier.symm
  · intro before after header hfirst
    have hread : headerValue (before ++ header :: after) header.key = header.text :=
      headerValue_first hfirst rfl
    refine ⟨?_, ?_, ?_⟩
    · intro after'
      rw [hread, headerValue_cons_self rfl]
    · rw [hread]
      exact Header.isSome_text
    · intro text htext
      rw [hread] at htext
      exact Header.text_eq_some.mp htext

theorem header_round_trip_duplicate_key :
    headerValue (orderHeaders [("traceparent", "00-a"), ("traceparent", "00-b")] (orderAt 9))
      "traceparent" = some "00-a" :=
  (header_round_trip (orderAt 9) [("traceparent", "00-a"), ("traceparent", "00-b")]
    (by simp)).2.2.1 [] ("traceparent", "00-a") [("traceparent", "00-b")] rfl (by simp)

end OrdersDemo
