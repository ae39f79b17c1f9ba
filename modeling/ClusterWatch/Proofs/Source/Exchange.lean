import ClusterWatch.Source.Fetch

/-!
# Exchanges — what becomes of the request of a source

A source asks one address, and another one only where the answer is a redirect that leads there.
`SourceConfig.Asks` has a rule for each way in which this can go on or end, and it is what an
exchange does (`SourceConfig.asks_iff`).

* `SourceConfig.Asks.length_le`: there is one request, and one more for each redirect that has come
  in a row, of which a client follows no more than its limit.
* `SourceConfig.Asks.delivery_of_stays`: what has come of the request is delivered, unless it is a
  redirect.
* `SourceConfig.exchanged_exchange`: both, of the exchange of a source, from its address on.
-/

namespace ClusterWatch

/-- Whether an arrival is a redirect that names a place. -/
def Arrival.redirects (x : Arrival) : Bool :=
  match x.delivery with
  | .answered code _ _ => isRedirect code && x.location.isSome
  | .unsent _ | .unanswered _ => false

variable [Client]

/-- What leads on is a redirect. -/
theorem Arrival.redirects_of_leads? {x : Arrival} {u : Url} {place : Option Url}
    (h : x.leads? u = some place) : x.redirects = true := by
  obtain ⟨delivery, location⟩ := x
  cases delivery with
  | unsent | unanswered => cases h
  | answered code body cut =>
      cases location with
      | none => cases h
      | some location =>
          simp only [leads?] at h
          split at h
          next hcode => exact Bool.and_eq_true_iff.2 ⟨hcode, rfl⟩
          next => cases h

namespace SourceConfig

/-- What a source comes to that asks an address, when so many more redirects may be followed: the
requests that it makes, and what it is delivered. -/
inductive Asks (config : SourceConfig) :
    Nat → Url → Request → List Arrival → List Request → Delivery → Prop
  /-- The request cannot be sent. -/
  | unsent {left : Nat} {u : Url} {request : Request} {arrivals : List Arrival}
      (hsends : Client.sends u request = false) :
      Asks config left u request arrivals []
        (.unsent (Client.wording (.unsendable u request)))
  /-- Nothing comes of the request. -/
  | late {left : Nat} {u : Url} {request : Request} (hsends : Client.sends u request = true) :
      Asks config left u request [] [request]
        (.unanswered (Client.wording (.late u request)))
  /-- What comes of it leads nowhere else. -/
  | settled {left : Nat} {u : Url} {request : Request} {x : Arrival} {later : List Arrival}
      (hsends : Client.sends u request = true) (hstays : x.leads? u = none) :
      Asks config left u request (x :: later) [request] (x.delivery.ended u request)
  /-- It leads to a place that is not of the web, or to one place too many. -/
  | astray {left : Nat} {u : Url} {request : Request} {x : Arrival} {later : List Arrival}
      {place : Option Url} (hsends : Client.sends u request = true)
      (hleads : x.leads? u = some place) (hend : place = none ∨ left = 0) :
      Asks config left u request (x :: later) [request]
        (.unanswered (Client.wording (.astray u request)))
  /-- It leads to an address, which is asked. -/
  | followed {left : Nat} {u v : Url} {request : Request} {x : Arrival} {later : List Arrival}
      {requests : List Request} {d : Delivery} (hsends : Client.sends u request = true)
      (hleads : x.leads? u = some (some v))
      (hnext : Asks config left v (config.requestAgain v) later requests d) :
      Asks config (left + 1) u request (x :: later) (request :: requests) d

variable {config : SourceConfig} {left : Nat} {u : Url} {request : Request}
  {arrivals : List Arrival} {requests : List Request} {d : Delivery}

/-! ### What is asked -/

theorem asks_ask (config : SourceConfig) (left : Nat) (u : Url) (request : Request)
    (arrivals : List Arrival) :
    config.Asks left u request arrivals (config.ask left u request arrivals).requests
      (config.ask left u request arrivals).delivery := by
  fun_induction ask config left u request arrivals with
  | case1 left u request hsends => exact .late hsends
  | case2 left u request hsends x later hstays => exact .settled hsends hstays
  | case3 u request hsends x later v left hleads ih => exact .followed hsends hleads ih
  | case4 left u request hsends x later place hleads hend =>
      -- a place of the web that may still be followed to is the case before
      refine .astray hsends hleads ?_
      cases place with
      | none => exact .inl rfl
      | some v =>
          cases left with
          | zero => exact .inr rfl
          | succ left => exact (hend v left rfl rfl).elim
  | case5 left u request arrivals hsends => exact .unsent (Bool.eq_false_iff.2 hsends)

/-- Each rule leaves one way to go on. -/
theorem Asks.unique {requests' : List Request} {d' : Delivery}
    (h : config.Asks left u request arrivals requests d)
    (h' : config.Asks left u request arrivals requests' d') : requests = requests' ∧ d = d' := by
  induction h generalizing requests' d' with
  | unsent hsends =>
      cases h' with
      | unsent => exact ⟨rfl, rfl⟩
      | late hsends' | settled hsends' | astray hsends' | followed hsends' =>
          cases hsends.symm.trans hsends'
  | late hsends =>
      cases h' with
      | unsent hsends' => cases hsends.symm.trans hsends'
      | late => exact ⟨rfl, rfl⟩
  | settled hsends hstays =>
      cases h' with
      | unsent hsends' => cases hsends.symm.trans hsends'
      | settled => exact ⟨rfl, rfl⟩
      | astray _ hleads | followed _ hleads => cases hstays.symm.trans hleads
  | astray hsends hleads hend =>
      cases h' with
      | unsent hsends' => cases hsends.symm.trans hsends'
      | settled _ hstays => cases hstays.symm.trans hleads
      | astray => exact ⟨rfl, rfl⟩
      | followed _ hleads' =>
          rcases hend with rfl | hend
          · cases hleads.symm.trans hleads'
          · cases hend
  | followed hsends hleads hnext ih =>
      cases h' with
      | unsent hsends' => cases hsends.symm.trans hsends'
      | settled _ hstays => cases hstays.symm.trans hleads
      | astray _ hleads' hend =>
          rcases hend with rfl | hend
          · cases hleads.symm.trans hleads'
          · cases hend
      | followed _ hleads' hnext' =>
          obtain rfl := Option.some.inj (Option.some.inj (hleads.symm.trans hleads'))
          obtain ⟨rfl, rfl⟩ := ih hnext'
          exact ⟨rfl, rfl⟩

/-- **An exchange goes as the rules have it.** -/
theorem asks_iff : config.Asks left u request arrivals requests d ↔
    (config.ask left u request arrivals).requests = requests ∧
      (config.ask left u request arrivals).delivery = d := by
  have hasks := asks_ask config left u request arrivals
  refine ⟨hasks.unique, ?_⟩
  rintro ⟨rfl, rfl⟩
  exact hasks

/-! ### How often, and what comes of it -/

/-- **There is one request, and one more for each redirect in a row**, up to the limit. -/
theorem Asks.length_le (h : config.Asks left u request arrivals requests d) :
    requests.length ≤ min left (arrivals.takeWhile (·.redirects)).length + 1 := by
  induction h with
  | unsent => exact Nat.zero_le _
  | late | settled | astray => exact Nat.succ_le_succ (Nat.zero_le _)
  | followed hsends hleads hnext ih =>
      rw [List.takeWhile_cons_of_pos (Arrival.redirects_of_leads? hleads), List.length_cons,
        List.length_cons, Nat.add_min_add_right]
      exact Nat.succ_le_succ ih

theorem Asks.head? (h : config.Asks left u request arrivals requests d) :
    ∀ first ∈ requests.head?, first = request := by
  cases h <;> simp

/-- **What has come of a request is delivered**, unless it is a redirect. -/
theorem Asks.delivery_of_stays {x : Arrival} {later : List Arrival}
    (h : config.Asks left u request (x :: later) requests d) (hstays : x.redirects = false)
    (hsent : requests ≠ []) : d = x.delivery.ended u request := by
  cases h with
  | unsent => exact absurd rfl hsent
  | settled => rfl
  | astray _ hleads | followed _ hleads =>
      cases hstays.symm.trans (Arrival.redirects_of_leads? hleads)

/-- What a source comes to with the network. -/
structure Exchanged (config : SourceConfig) (arrivals : List Arrival) (requests : List Request)
    (d : Delivery) : Prop where
  /-- An address that is none is not asked. -/
  unusable : Url.parse? config.url.toList = none →
    requests = [] ∧ d = .unsent (Client.wording (.unusable config.url))
  /-- Another one is asked as the rules have it. -/
  asks : ∀ u, Url.parse? config.url.toList = some u →
    config.Asks redirectLimit u (config.requestFor u) arrivals requests d
  /-- The first request is the one of the source. -/
  first : ∀ request ∈ requests.head?, config.request? = some request
  /-- There is at most one, and one more for each redirect that comes in a row, up to the limit. -/
  few : requests.length ≤ min redirectLimit (arrivals.takeWhile (·.redirects)).length + 1
  /-- What has come of it is delivered, unless it is a redirect. -/
  once : ∀ x ∈ arrivals.head?, x.redirects = false → requests ≠ [] →
    ∃ u, Url.parse? config.url.toList = some u ∧
      d = x.delivery.ended u (config.requestFor u)

/-- **The exchange of a source.** -/
theorem exchanged_exchange (config : SourceConfig) (arrivals : List Arrival) :
    config.Exchanged arrivals (config.exchange arrivals).requests
      (config.exchange arrivals).delivery := by
  cases hparse : Url.parse? config.url.toList with
  | none =>
      have hexchange : config.exchange arrivals =
          ⟨[], .unsent (Client.wording (.unusable config.url)), none, arrivals⟩ := by
        rw [exchange, hparse]
      rw [hexchange]
      exact ⟨fun _ => ⟨rfl, rfl⟩, fun u hu => (by cases hparse.symm.trans hu),
        fun request h => (by cases h), Nat.zero_le _, fun x _ _ hsent => absurd rfl hsent⟩
  | some u =>
      have hexchange : config.exchange arrivals =
          config.ask redirectLimit u (config.requestFor u) arrivals := by
        rw [exchange, hparse]
      have hasks := asks_ask config redirectLimit u (config.requestFor u) arrivals
      rw [hexchange]
      constructor
      case unusable => exact fun h => (by cases hparse.symm.trans h)
      case asks =>
        intro v hv
        obtain rfl := Option.some.inj (hparse.symm.trans hv)
        exact hasks
      case first =>
        intro request h
        rw [hasks.head? request h, request?, hparse, Option.map_some]
      case few => exact hasks.length_le
      case once =>
        intro x hx hstays hsent
        obtain ⟨later, rfl⟩ := List.head?_eq_some_iff.1 hx
        exact ⟨u, hparse, hasks.delivery_of_stays hstays hsent⟩

end SourceConfig

end ClusterWatch
