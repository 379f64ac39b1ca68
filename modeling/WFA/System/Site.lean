-- SUMMARY: The whole site: what visiting pages does to the back end, and what the pages show.
import WFA.Server.SessionHistory
import WFA.System.Net
import WFA.Translator.Links

/-!
# The site

A browser asks the translator for a page. A static page is sent as it is; for any
other page the translator asks the back end and shows the answer. Seen from the back
end, a run of such visits is a run of requests of the same clients, in which only the
pages that forward count; a request that is not answered is the last one, as the back
end and its database are gone with it. Seen from the browser, a page is what its
template means for the record of the handler, as long as no delimiter of the wire
format gets into the forms.
-/

namespace WFA

open Text ResponseWrapper

/-! ## Visits -/

/-- A request for a page, with what is drawn and read for it at the back end. -/
structure PageVisit (Client : Type) where
  client : Client
  method : Method
  path : Text
  /-- The text behind the `?` of the URL. -/
  queryText : Text
  body : Text
  fresh : Nat
  date : Text
  /-- The length of a body is a `size_t`. -/
  short : body.length ≤ sizeMax

/-- What the translator gets. -/
def PageVisit.request {Client : Type} (visit : PageVisit Client) (cookie : Text) : PageRequest where
  method := visit.method
  queryText := visit.queryText
  cookie := cookie
  lengthText := lengthOf visit.method visit.body
  parts := arrive visit.body

/-- The calls of handlers that come of a request to the back end, with their route. A URL
that `libcurl` refuses is a request that nobody gets. -/
def Forwarded.requests (curl : Curl) (forwarded : Forwarded) (fresh : Nat) (date : Text) :
    List (Option (Route × Call)) :=
  match curl.target forwarded.url with
  | none => [none]
  | some target =>
    let route := netRoute forwarded.method target.1
    (netCalls route (target.2.getD []) (lengthOf forwarded.method forwarded.body)
      (arrive forwarded.body)).map fun values =>
        some (route,
          { req := { cookie := forwarded.cookie }, b := values.1, q := values.2, fresh, date })

/-- The answer for a path that is not linked. -/
def badTranslation : Page where
  status := ("200 OK" : Text)
  headers := []
  body := ("Bad translation." : Text)

/-- `staticWrapper::apply`. -/
def staticPage (data : Text) : Page where
  status := ("200 OK" : Text)
  headers := []
  body := data

/-! ## The site -/

/-- Both servers run, the translator runs alone, or it has ended. The back end loses its
database when it ends. -/
inductive Site (browser : Browser) (Client : Type) where
  | both (world : World browser Client)
  | alone (jars : Client → browser.Jar)
  | ended (server : Option Server)

namespace Site

variable {browser : Browser} {Client : Type}

/-- The back end, as long as it runs. -/
def server : Site browser Client → Option Server
  | .both world => some world.server
  | .alone _ => none
  | .ended server => server

/-- The header `cookie` of a client's requests. -/
def header (client : Client) : Site browser Client → Text
  | .both world => browser.header (world.jars client)
  | .alone jars => browser.header (jars client)
  | .ended _ => []

variable [DecidableEq Client]

/-- A request to the back end, and what comes back. -/
def send (asserts : Bool) (p : Platform) (client : Client) :
    Site browser Client → Option (Route × Call) → Site browser Client × Exec APIResponse
  | .both world, some (route, call) =>
    match answer asserts p route (some world.server) call with
    | (some server, api) =>
      let slots := Function.update world.slots client
        (slotStep p world.server route call.b (world.slots client))
      (.both { world with server, slots }, api)
    | (none, api) => (.alone world.jars, api)
  | site, _ => (site, pure {})

/-- A page goes to the browser of a client. A translator that fails on the page ends. -/
def deliver (client : Client) : Site browser Client → Exec Page → Site browser Client × List Page
  | .both world, .ok page =>
    let jars := Function.update world.jars client
      (browser.receiveAll (world.jars client) page.headers)
    (.both { world with jars }, [page])
  | .alone jars, .ok page =>
    (.alone (Function.update jars client (browser.receiveAll (jars client) page.headers)), [page])
  | site, _ => (.ended site.server, [])

/-- A request of a page, with its answer through the template. -/
def forward (asserts : Bool) (p : Platform) (client : Client) (translation : Translation)
    (q : Query) (state : Site browser Client × List Page) (request : Option (Route × Call)) :
    Site browser Client × List Page :=
  let (site, api) := state.1.send asserts p client request
  let (site, pages) := site.deliver client do
    applyTranslation asserts (← api) translation q
  (site, state.2 ++ pages)

/-- A visit, with the pages that the browser gets: each request to the back end gives one.
`pick` is the choice that the router makes among the linked pages. -/
def visit (asserts : Bool) (p : Platform) (curl : Curl)
    (pick : Method → Text → Option LinkedPage) (site : Site browser Client)
    (visit : PageVisit Client) : Site browser Client × List Page :=
  match site with
  | .ended server => (.ended server, [])
  | site =>
    match pick visit.method visit.path with
    | none => (site, [badTranslation])
    | some page =>
      match page.wrapper with
      | .static data => (site, [staticPage data])
      | .forwarding translation destination =>
        ((forwards destination (visit.request (site.header visit.client))).flatMap
          fun forwarded => forwarded.requests curl visit.fresh visit.date).foldl
            (forward asserts p visit.client translation (parseURLValues visit.queryText)) (site, [])

end Site

/-- The site after a visit. -/
def Site.step {browser : Browser} {Client : Type} [DecidableEq Client] (asserts : Bool)
    (p : Platform) (curl : Curl) (pick : Method → Text → Option LinkedPage)
    (site : Site browser Client) (visit : PageVisit Client) : Site browser Client :=
  (site.visit asserts p curl pick visit).1

/-- The request that a visit makes of the back end, if it makes one. -/
def PageVisit.backEndVisit {Client : Type} (curl : Curl) (pick : Method → Text → Option LinkedPage)
    (visit : PageVisit Client) : Option (Visit Client) :=
  (pick visit.method visit.path).bind fun page =>
    match page.wrapper with
    | .static _ => none
    | .forwarding _ destination =>
      (curl.target (forwardedUrl destination visit.queryText)).map fun target =>
        let route := netRoute visit.method target.1
        let body := if visit.method = .post then visit.body else []
        { client := visit.client
          route
          b := if route.wrapped then parseURLValues body else .empty
          q := if route.wrapped then parseURLValues (target.2.getD []) else .empty
          fresh := visit.fresh
          date := visit.date
          status := Status.ok.text }

/-- Visits one after the other. `allowed` is what is asked of the requests that reach
the back end. -/
abbrev PageRun {browser : Browser} {Client : Type} [DecidableEq Client] (asserts : Bool)
    (p : Platform) (curl : Curl) (pick : Method → Text → Option LinkedPage)
    (allowed : World browser Client → Visit Client → Prop) (start : World browser Client) :
    List (PageVisit Client) → Site browser Client → Prop :=
  Run (Site.step asserts p curl pick)
    (fun site visit => ∀ world request, site = .both world →
      visit.backEndVisit curl pick = some request → allowed world request) (.both start)

/-- What is asked of the forms: no delimiter, and no quote out of place. -/
def cleanly {browser : Browser} {Client : Type} (world : World browser Client)
    (request : Visit Client) : Prop :=
  CleanCall (world.call request) ∧ Quoted request.route request.b

/-! ## One call for each visit -/

section Calls

variable {Client : Type} {curl : Curl}

/-- A visit is sent on once, with its body whole. -/
theorem forwards_visit (visit : PageVisit Client) (destination cookie : Text) :
    forwards destination (visit.request cookie) =
      [{ method := visit.method, url := forwardedUrl destination visit.queryText, cookie
         body := if visit.method = .post then visit.body else [] }] := by
  unfold forwards PageVisit.request
  cases hmethod : visit.method with
  | get => simp
  | post => simp [extractPostBody_arrive visit.short]

/-- The handler is called once. -/
theorem netCalls_arrive (route : Route) (queryText : Text) {method : Method} {body : Text}
    (hget : method = .get → body = []) (hshort : body.length ≤ sizeMax) :
    netCalls route queryText (lengthOf method body) (arrive body) =
      [(if route.wrapped then parseURLValues body else .empty,
        if route.wrapped then parseURLValues queryText else .empty)] := by
  unfold netCalls
  cases route.wrapped with
  | false => rfl
  | true =>
    cases method with
    | get => simp [hget rfl, httpCalls_get, parseURLValues_nil]
    | post => simp [httpCalls_arrive _ hshort]

end Calls

/-! ## Seen from the back end -/

section Refinement

variable {asserts : Bool} {p : Platform} {curl : Curl} {browser : Browser} {Client : Type}
  {pick : Method → Text → Option LinkedPage} {visit : PageVisit Client} {page : LinkedPage}
  {translation : Translation} {destination : Text}

/-- The request of a visit that is sent on, with the cookie of its browser. -/
theorem requests_visit (hpick : pick visit.method visit.path = some page)
    (hwrapper : page.wrapper = .forwarding translation destination) (cookie : Text) :
    ((forwards destination (visit.request cookie)).flatMap
        fun forwarded => forwarded.requests curl visit.fresh visit.date) =
      [(visit.backEndVisit curl pick).map fun request =>
        (request.route,
          { req := { cookie }, b := request.b, q := request.q, fresh := request.fresh
            date := request.date })] := by
  rw [forwards_visit, List.flatMap_singleton]
  simp only [Forwarded.requests, PageVisit.backEndVisit, hpick, Option.bind_some, hwrapper]
  cases curl.target (forwardedUrl destination visit.queryText) with
  | none => rfl
  | some target =>
    dsimp only
    rw [netCalls_arrive]
    · rfl
    · intro hmethod
      exact if_neg (by simp [hmethod])
    · split
      · exact visit.short
      · exact Nat.zero_le _

theorem applyTranslation_headers {api : APIResponse} {q : Query} {shown : Page}
    (h : applyTranslation asserts api translation q = .ok shown) : shown.headers = api.headers := by
  unfold applyTranslation at h
  cases hdata : ResponseWrapper.fromData asserts api.response with
  | error trap => simp [hdata, bind, Except.bind] at h
  | ok data =>
    cases data with
    | none =>
      simp only [hdata, bind, Except.bind, pure, Except.pure, Except.ok.injEq] at h
      rw [← h]
    | some w =>
      cases hout : translation.apply asserts w api.responseCode q with
      | error trap => simp [hdata, hout, bind, Except.bind] at h
      | ok out =>
        simp only [hdata, hout, bind, Except.bind, pure, Except.pure, Except.ok.injEq] at h
        rw [← h]

variable [DecidableEq Client]

/-- A visit that ends with a page for the browser, or with a translator that fails on it. -/
def Site.showing (after : Site browser Client) : Exec Page → Site browser Client × List Page
  | .ok shown => (after, [shown])
  | .error _ => (.ended after.server, [])

/-- A page without header fields changes nothing but for what the browser shows. -/
theorem Site.deliver_plain {site : Site browser Client} (hruns : ∀ server, site ≠ .ended server)
    (client : Client) {api : APIResponse} {q : Query} (hheaders : api.headers = []) :
    site.deliver client (applyTranslation asserts api translation q) =
      site.showing (applyTranslation asserts api translation q) := by
  cases hpage : applyTranslation asserts api translation q with
  | error trap => cases site <;> rfl
  | ok shown =>
    have hnone : shown.headers = [] := (applyTranslation_headers hpage).trans hheaders
    cases site with
    | ended server => exact absurd rfl (hruns server)
    | both world =>
      simp only [Site.deliver, hnone, Browser.receiveAll, List.foldl_nil, Function.update_eq_self]
      rfl
    | alone jars =>
      simp only [Site.deliver, hnone, Browser.receiveAll, List.foldl_nil, Function.update_eq_self]
      rfl

/-- What a request comes to once the back end has been asked. -/
theorem Site.forward_of_send {site after : Site browser Client} {client : Client}
    {request : Option (Route × Call)} {api : APIResponse} {q : Query}
    (hsend : site.send asserts p client request = (after, .ok api)) :
    Site.forward asserts p client translation q (site, []) request =
      after.deliver client (applyTranslation asserts api translation q) := by
  simp only [Site.forward, hsend]
  rfl

/-- The request that the back end gets. -/
def Site.call (site : Site browser Client) (request : Visit Client) : Call where
  req := { cookie := site.header request.client }
  b := request.b
  q := request.q
  fresh := request.fresh
  date := request.date

section Forwarding

variable (hpick : pick visit.method visit.path = some page)
  (hwrapper : page.wrapper = .forwarding translation destination)

include hpick hwrapper

omit [DecidableEq Client] in
theorem backEndVisit_client {request : Visit Client}
    (hrequest : visit.backEndVisit curl pick = some request) : request.client = visit.client := by
  simp only [PageVisit.backEndVisit, hpick, Option.bind_some, hwrapper, Option.map_eq_some_iff]
    at hrequest
  obtain ⟨target, -, rfl⟩ := hrequest
  rfl

/-- A visit to a page that forwards, while the translator runs: its request goes to the
back end, once, and what comes back goes through the template. -/
theorem visit_forwarding {site : Site browser Client} (hruns : ∀ server, site ≠ .ended server) :
    site.visit asserts p curl pick visit =
      Site.forward asserts p visit.client translation (parseURLValues visit.queryText) (site, [])
        ((visit.backEndVisit curl pick).map fun request => (request.route, site.call request)) := by
  have hvisit : site.visit asserts p curl pick visit =
      ((forwards destination (visit.request (site.header visit.client))).flatMap
        fun forwarded => forwarded.requests curl visit.fresh visit.date).foldl
          (Site.forward asserts p visit.client translation (parseURLValues visit.queryText))
          (site, []) := by
    cases site with
    | ended server => exact absurd rfl (hruns server)
    | both world => simp only [Site.visit, hpick, hwrapper]
    | alone jars => simp only [Site.visit, hpick, hwrapper]
  rw [hvisit, requests_visit hpick hwrapper, List.foldl_cons, List.foldl_nil]
  cases hrequest : visit.backEndVisit curl pick with
  | none => rfl
  | some request =>
    rw [Option.map_some, Option.map_some, Site.call, backEndVisit_client hpick hwrapper hrequest]

/-- Where there is no back end, or no request for it, the template is shown on nothing. -/
theorem visit_unsent {site : Site browser Client} (hruns : ∀ server, site ≠ .ended server)
    (hunsent : ∀ world, site = .both world → visit.backEndVisit curl pick = none) :
    site.visit asserts p curl pick visit =
      site.showing (applyTranslation asserts {} translation (parseURLValues visit.queryText)) := by
  have hsend : ∀ request, (∀ world, site = .both world → request = none) →
      site.send asserts p visit.client request = (site, .ok {}) := by
    intro request hrequest
    cases site with
    | both world =>
      rw [hrequest world rfl]
      rfl
    | alone jars => rfl
    | ended server => rfl
  rw [visit_forwarding hpick hwrapper hruns, Site.forward_of_send (hsend _ ?_)]
  · exact Site.deliver_plain hruns visit.client rfl
  · intro world hsite
    rw [hunsent world hsite, Option.map_none]

variable {world : World browser Client} {request : Visit Client}
  (hrequest : visit.backEndVisit curl pick = some request)

include hrequest

/-- What the back end answers goes through the template, and its header to the browser. -/
theorem visit_answered {status : Status} {response : Option ResponseWrapper} {data : Text}
    (hhandle : (handle p request.route world.server (world.call request)).2 =
      .reply status response)
    (hdata : bodyText asserts request.route response = .ok data) :
    (Site.both world).visit asserts p curl pick visit =
      (Site.both (world.step asserts p request)).showing
        (applyTranslation asserts
          { headers := replyHeaders p request.route world.server (world.call request)
            response := data, responseCode := status.code }
          translation (parseURLValues visit.queryText)) := by
  have hclient := backEndVisit_client hpick hwrapper hrequest
  have hanswer := answer_eq hhandle hdata
  rw [visit_forwarding hpick hwrapper (by simp), hrequest, Option.map_some, ← hclient,
    Site.forward_of_send]
  rotate_left
  · show Site.send asserts p request.client (.both world) (some (request.route, world.call request)) = _
    simp only [Site.send, hanswer]
    rfl
  cases hpage : applyTranslation asserts
      { headers := replyHeaders p request.route world.server (world.call request)
        response := data, responseCode := status.code }
      translation (parseURLValues visit.queryText) with
  | error trap => rfl
  | ok shown =>
    have hheaders := applyTranslation_headers hpage
    simp only [Site.deliver, Site.showing, hheaders, World.step, World.headers_eq]
    rfl

/-- A request that is not answered ends the back end. -/
theorem visit_unanswered
    (hnot : ¬ Answered asserts p request.route world.server (world.call request)) :
    (Site.both world).visit asserts p curl pick visit =
      (Site.alone world.jars).showing
        (applyTranslation asserts {} translation (parseURLValues visit.queryText)) := by
  have hclient := backEndVisit_client hpick hwrapper hrequest
  have hanswer := answer_of_not_answered hnot
  rw [visit_forwarding hpick hwrapper (by simp), hrequest, Option.map_some, ← hclient,
    Site.forward_of_send]
  rotate_left
  · show Site.send asserts p request.client (.both world) (some (request.route, world.call request)) = _
    simp only [Site.send, hanswer]
    rfl
  exact Site.deliver_plain (by simp) request.client rfl

end Forwarding

/-- What a visit can do to a site in which both servers run. -/
inductive VisitStep (asserts : Bool) (p : Platform) (curl : Curl)
    (pick : Method → Text → Option LinkedPage) (world : World browser Client)
    (visit : PageVisit Client) : Site browser Client → Prop
  | idle : visit.backEndVisit curl pick = none →
    VisitStep asserts p curl pick world visit (.both world)
  | refused : visit.backEndVisit curl pick = none →
      VisitStep asserts p curl pick world visit (.ended (some world.server))
  | answered {request : Visit Client} : visit.backEndVisit curl pick = some request →
      Answered asserts p request.route world.server (world.call request) →
      VisitStep asserts p curl pick world visit (.both (world.step asserts p request))
  | failed {request : Visit Client} : visit.backEndVisit curl pick = some request →
      Answered asserts p request.route world.server (world.call request) →
      VisitStep asserts p curl pick world visit
        (.ended (some (world.step asserts p request).server))
  | alone {request : Visit Client} : visit.backEndVisit curl pick = some request →
      ¬ Answered asserts p request.route world.server (world.call request) →
      VisitStep asserts p curl pick world visit (.alone world.jars)
  | lost {request : Visit Client} : visit.backEndVisit curl pick = some request →
      ¬ Answered asserts p request.route world.server (world.call request) →
      VisitStep asserts p curl pick world visit (.ended none)

omit [DecidableEq Client] in
theorem Site.showing_cases (after : Site browser Client) (page : Exec Page) :
    (after.showing page).1 = after ∨ (after.showing page).1 = .ended after.server := by
  cases page with
  | ok shown => exact .inl rfl
  | error trap => exact .inr rfl

theorem step_both {world : World browser Client} {after : Site browser Client}
    (hafter : (Site.both world).step asserts p curl pick visit = after) :
    VisitStep asserts p curl pick world visit after := by
  subst hafter
  unfold Site.step
  cases hpick : pick visit.method visit.path with
  | none =>
    simp only [Site.visit, hpick]
    exact .idle (by simp [PageVisit.backEndVisit, hpick])
  | some page =>
    cases hwrapper : page.wrapper with
    | static data =>
      simp only [Site.visit, hpick, hwrapper]
      exact .idle (by simp [PageVisit.backEndVisit, hpick, hwrapper])
    | forwarding translation destination =>
      cases hrequest : visit.backEndVisit curl pick with
      | none =>
        rw [visit_unsent hpick hwrapper (by simp) fun _ _ => hrequest]
        rcases Site.showing_cases (Site.both world) (applyTranslation asserts {} translation
          (parseURLValues visit.queryText)) with h | h <;> rw [h]
        · exact .idle hrequest
        · exact .refused hrequest
      | some request =>
        by_cases hanswered : Answered asserts p request.route world.server (world.call request)
        · obtain ⟨status, response, data, hhandle, hdata⟩ := id hanswered
          rw [visit_answered hpick hwrapper hrequest hhandle hdata]
          rcases Site.showing_cases (Site.both (world.step asserts p request)) (applyTranslation
            asserts { headers := replyHeaders p request.route world.server (world.call request)
                      response := data, responseCode := status.code } translation
            (parseURLValues visit.queryText)) with h | h <;> rw [h]
          · exact .answered hrequest hanswered
          · exact .failed hrequest hanswered
        · rw [visit_unanswered hpick hwrapper hrequest hanswered]
          rcases Site.showing_cases (Site.alone world.jars : Site browser Client) (applyTranslation
            asserts {} translation (parseURLValues visit.queryText)) with h | h <;> rw [h]
          · exact .alone hrequest hanswered
          · exact .lost hrequest hanswered

/-- Without a back end, there is none after a visit either. -/
theorem step_alone {jars : Client → browser.Jar} {after : Site browser Client}
    (hafter : (Site.alone jars).step asserts p curl pick visit = after) :
    after = .alone jars ∨ after = .ended none := by
  subst hafter
  unfold Site.step
  cases hpick : pick visit.method visit.path with
  | none => exact .inl (by simp only [Site.visit, hpick])
  | some page =>
    cases hwrapper : page.wrapper with
    | static data => exact .inl (by simp only [Site.visit, hpick, hwrapper])
    | forwarding translation destination =>
      rw [visit_unsent hpick hwrapper (by simp) (by simp)]
      exact Site.showing_cases _ _

theorem step_ended (server : Option Server) (visit : PageVisit Client) :
    (Site.ended server : Site browser Client).step asserts p curl pick visit = .ended server :=
  rfl

/-- The back end has answered the requests of the visits. -/
abbrev Served (asserts : Bool) (p : Platform) (curl : Curl)
    (pick : Method → Text → Option LinkedPage)
    (allowed : World browser Client → Visit Client → Prop) (start : World browser Client)
    (visits : List (PageVisit Client)) (world : World browser Client) : Prop :=
  Run (World.step asserts p)
    (fun world request => allowed world request ∧
      Answered asserts p request.route world.server (world.call request))
    start (visits.filterMap (PageVisit.backEndVisit curl pick)) world

/-- The back end has ended on the request of a visit, the first one that it did not answer. -/
def Lost (asserts : Bool) (p : Platform) (curl : Curl) (pick : Method → Text → Option LinkedPage)
    (allowed : World browser Client → Visit Client → Prop) (start : World browser Client)
    (visits : List (PageVisit Client)) (jars : Client → browser.Jar) : Prop :=
  ∃ before visit after request world, visits = before ++ visit :: after ∧
    Served asserts p curl pick allowed start before world ∧
    visit.backEndVisit curl pick = some request ∧ allowed world request ∧
    ¬ Answered asserts p request.route world.server (world.call request) ∧ jars = world.jars

/-- What visits come to, told by the requests that the back end gets. -/
inductive Reached (asserts : Bool) (p : Platform) (curl : Curl)
    (pick : Method → Text → Option LinkedPage)
    (allowed : World browser Client → Visit Client → Prop) (start : World browser Client)
    (visits : List (PageVisit Client)) : Site browser Client → Prop
  | both {world : World browser Client} : Served asserts p curl pick allowed start visits world →
      Reached asserts p curl pick allowed start visits (.both world)
  | alone {jars : Client → browser.Jar} : Lost asserts p curl pick allowed start visits jars →
      Reached asserts p curl pick allowed start visits (.alone jars)
  -- the translator ended on the page of the last visit in `before`
  | ended {before after : List (PageVisit Client)} {world : World browser Client} :
      visits = before ++ after → Served asserts p curl pick allowed start before world →
      Reached asserts p curl pick allowed start visits (.ended (some world.server))
  | lost {jars : Client → browser.Jar} : Lost asserts p curl pick allowed start visits jars →
      Reached asserts p curl pick allowed start visits (.ended none)

variable {allowed : World browser Client → Visit Client → Prop} {start : World browser Client}
  {visits : List (PageVisit Client)} {site : Site browser Client}

theorem Lost.append {jars : Client → browser.Jar}
    (h : Lost asserts p curl pick allowed start visits jars) (visit : PageVisit Client) :
    Lost asserts p curl pick allowed start (visits ++ [visit]) jars := by
  obtain ⟨before, last, after, request, world, rfl, hrest⟩ := h
  exact ⟨before, last, after ++ [visit], request, world, by simp, hrest⟩

/-- A visit without a request leaves what the back end has answered. -/
theorem Served.idle {world : World browser Client}
    (h : Served asserts p curl pick allowed start visits world)
    (hnone : visit.backEndVisit curl pick = none) :
    Served asserts p curl pick allowed start (visits ++ [visit]) world := by
  unfold Served
  rwa [List.filterMap_append, List.filterMap_cons_none hnone, List.filterMap_nil, List.append_nil]

theorem Served.answered {world : World browser Client} {request : Visit Client}
    (h : Served asserts p curl pick allowed start visits world)
    (hrequest : visit.backEndVisit curl pick = some request) (hallowed : allowed world request)
    (hanswered : Answered asserts p request.route world.server (world.call request)) :
    Served asserts p curl pick allowed start (visits ++ [visit]) (world.step asserts p request) := by
  unfold Served
  rw [List.filterMap_append, List.filterMap_cons_some hrequest, List.filterMap_nil]
  exact .snoc h ⟨hallowed, hanswered⟩

theorem PageRun.reached (hrun : PageRun asserts p curl pick allowed start visits site) :
    Reached asserts p curl pick allowed start visits site := by
  induction hrun with
  | nil => exact .both .nil
  | @snoc visits site visit _ hallowed ih =>
    cases ih with
    | @both world hserved =>
      generalize hafter : (Site.both world).step asserts p curl pick visit = after
      cases step_both hafter with
      | idle hnone => exact .both (hserved.idle hnone)
      | refused hnone => exact .ended (List.append_nil _).symm (hserved.idle hnone)
      | answered hrequest hanswered =>
        exact .both (hserved.answered hrequest (hallowed _ _ rfl hrequest) hanswered)
      | failed hrequest hanswered =>
        exact .ended (List.append_nil _).symm
          (hserved.answered hrequest (hallowed _ _ rfl hrequest) hanswered)
      | alone hrequest hnot =>
        exact .alone ⟨visits, visit, [], _, world, rfl, hserved, hrequest,
          hallowed _ _ rfl hrequest, hnot, rfl⟩
      | lost hrequest hnot =>
        exact .lost ⟨visits, visit, [], _, world, rfl, hserved, hrequest,
          hallowed _ _ rfl hrequest, hnot, rfl⟩
    | @alone jars hlost =>
      generalize hafter : (Site.alone jars).step asserts p curl pick visit = after
      rcases step_alone hafter with rfl | rfl
      · exact .alone (hlost.append visit)
      · exact .lost (hlost.append visit)
    | ended hvisits hserved =>
      rw [step_ended]
      exact .ended (by rw [hvisits, List.append_assoc]) hserved
    | lost hlost =>
      rw [step_ended]
      exact .lost (hlost.append visit)

omit [DecidableEq Client] in
/-- What a visit asks of the back end: the path of its page, and what the client wrote. -/
theorem backEndVisit_plain (hcurl : curl.Lawful) (hpick : pick visit.method visit.path = some page)
    (hwrapper : page.wrapper = .forwarding translation destination) (hpath : PlainPath destination)
    (hquery : visit.queryText.all isQueryByte = true) :
    visit.backEndVisit curl pick = some
      { client := visit.client
        route := netRoute visit.method destination
        b := if (netRoute visit.method destination).wrapped then
            parseURLValues (if visit.method = .post then visit.body else []) else .empty
        q := if (netRoute visit.method destination).wrapped then parseURLValues visit.queryText
          else .empty
        fresh := visit.fresh
        date := visit.date
        status := Status.ok.text } := by
  have htarget : curl.target (forwardedUrl destination visit.queryText) =
      some (destination, if visit.queryText.isEmpty then none else some visit.queryText) := by
    unfold forwardedUrl
    cases hempty : visit.queryText.isEmpty with
    | true => simpa using hcurl.path destination hpath
    | false => simpa using hcurl.query destination visit.queryText hpath hquery
  have hgiven : (if visit.queryText.isEmpty then none else some visit.queryText).getD [] =
      visit.queryText := by
    split
    · rename_i hempty
      exact (List.isEmpty_iff.mp hempty).symm
    · rfl
  simp only [PageVisit.backEndVisit, hpick, Option.bind_some, hwrapper, htarget, Option.map_some,
    hgiven]

end Refinement

/-! ### A login and a guest -/

/-- A page that shows nothing of what it asks for. -/
def linkedVehicle : LinkedPage where
  method := .get
  path := ("/vehicle" : Text)
  wrapper := .forwarding (.mk .always (.name []) (Node.buildAll homePage)) ("/vehicle/select" : Text)

/-- The router, for paths without patterns. -/
def sitePick (method : Method) (path : Text) : Option LinkedPage :=
  [staticLogin, linkedRequest, linkedHome, linkedVehicle].find? fun page =>
    page.method == method && page.path == path

def homeVisit (client : Bool) : PageVisit Bool where
  client := client
  method := .get
  path := ("/home" : Text)
  queryText := []
  body := []
  fresh := 0
  date := []
  short := Nat.zero_le _

/-- A guest asks for a vehicle that nobody has. -/
def vehicleVisit : PageVisit Bool where
  client := true
  method := .get
  path := ("/vehicle" : Text)
  queryText := ("ID=99" : Text)
  body := []
  fresh := 0
  date := []
  short := Nat.zero_le _

/-- What the back end is asked when the form is sent. -/
def loginRequest : Visit Bool where
  client := false
  route := .request
  b := credentials adminName adminName
  q := .empty
  fresh := 7
  date := []
  status := Status.ok.text

def homeRequest (client : Bool) : Visit Bool where
  client := client
  route := .userMe
  b := .empty
  q := .empty
  fresh := 0
  date := []
  status := Status.ok.text

def vehicleRequest : Visit Bool where
  client := true
  route := .vehicleSelect
  b := .empty
  q := parseURLValues ("ID=99" : Text)
  fresh := 0
  date := []
  status := Status.ok.text

theorem pick_home : sitePick .get ("/home" : Text) = some linkedHome := rfl

theorem pick_vehicle : sitePick vehicleVisit.method vehicleVisit.path = some linkedVehicle := rfl

theorem backEndVisit_home (client : Bool) :
    (homeVisit client).backEndVisit .cutting sitePick = some (homeRequest client) := by
  have hpath : PlainPath ("/user/me" : Text) := ⟨rfl, rfl⟩
  have hroute : netRoute .get ("/user/me" : Text) = .userMe := rfl
  have hpick : sitePick (homeVisit client).method (homeVisit client).path = some linkedHome :=
    pick_home
  rw [backEndVisit_plain Curl.cutting_lawful hpick rfl hpath rfl]
  simp only [homeVisit, hroute, reduceCtorEq, parseURLValues_nil, ite_self]
  rfl

theorem backEndVisit_vehicle :
    vehicleVisit.backEndVisit .cutting sitePick = some vehicleRequest := by
  have hpath : PlainPath ("/vehicle/select" : Text) := ⟨rfl, rfl⟩
  have hquery : vehicleVisit.queryText.all isQueryByte = true := rfl
  have hroute : netRoute .get ("/vehicle/select" : Text) = .vehicleSelect := rfl
  rw [backEndVisit_plain Curl.cutting_lawful pick_vehicle rfl hpath hquery]
  simp only [vehicleVisit, hroute, reduceCtorEq, parseURLValues_nil, ite_self]
  rfl

/-- The world after the login, and after a guest has asked for the home page. -/
def loggedIn : World sessionBrowser Bool :=
  emptyWorld.step true .integers loginRequest

def guestSeen : World sessionBrowser Bool :=
  loggedIn.step true .integers (homeRequest true)

theorem vehicleRequest_q : vehicleRequest.q = .ofList [(Field.id, ("99" : Text))] := by
  have hnames : ∀ pair ∈ [(Field.id, ("99" : Text))], FormName pair.1 := by
    unfold FormName
    decide +kernel
  have hencoded : ("ID=99" : Text) = encode [(Field.id, ("99" : Text))] := rfl
  rw [vehicleRequest, hencoded, parseURLValues, valuesFrom_encode hnames, foldl_set_eq_ofList]

/-- The form is sent, and the browser gets the cookie of its session. -/
theorem showing_fst {after : Site sessionBrowser Bool} {content : Exec Page} (shown : Page)
    (h : content = .ok shown) : (after.showing content).1 = after := by
  rw [h]
  rfl

/-- The other client has no session. -/
theorem step_guest :
    (Site.both loggedIn).step true .integers .cutting sitePick (homeVisit true) =
      .both guestSeen := by
  have hreply : (handle .integers .userMe loggedIn.server
      (loggedIn.call (homeRequest true))).2 = .reply .unauthorised none := by decide +kernel
  have hpick : sitePick (homeVisit true).method (homeVisit true).path = some linkedHome := pick_home
  rw [Site.step, visit_answered hpick rfl (backEndVisit_home true) hreply rfl]
  refine showing_fst
    { status := ("401" : Text)
      headers := replyHeaders .integers .userMe loggedIn.server (loggedIn.call (homeRequest true))
      body := ("Login" : Text) } ?_
  decide +kernel

/-- The row of the vehicle is read without a look at how many there are. -/
theorem step_vehicle :
    (Site.both guestSeen).step true .integers .cutting sitePick vehicleVisit =
      .alone guestSeen.jars := by
  have hending : (handle .integers .vehicleSelect guestSeen.server
      (guestSeen.call vehicleRequest)).2 = .undefined := by
    have howner : ownerOf .integers guestSeen.server.database ("99" : Text) = [] := by
      decide +kernel
    change selectVehicle .integers guestSeen.server (guestSeen.call vehicleRequest).req
      vehicleRequest.q = _
    rw [vehicleRequest_q, selectVehicle,
      show (QueryBase.ofList [(Field.id, ("99" : Text))]).hasElement Field.id = true from rfl,
      show (QueryBase.ofList [(Field.id, ("99" : Text))]).getElement Field.id = some _ from rfl]
    simp only [Option.getD_some, howner, Bool.not_true, Bool.false_eq_true, if_false]
  have hnot : ¬ Answered true .integers vehicleRequest.route guestSeen.server
      (guestSeen.call vehicleRequest) := by
    rintro ⟨status, response, -, hreply, -⟩
    exact absurd (hending.symm.trans hreply) (by simp)
  rw [Site.step, visit_unanswered pick_vehicle rfl backEndVisit_vehicle hnot]
  refine showing_fst { status := ("0" : Text), headers := [], body := [] } ?_
  decide +kernel

/-- The handlers that answer a `GET`. -/
def Route.reads : Route → Bool
  | .release | .checkSession | .userMe | .userSearch | .userSelect | .supplierSearch
  | .supplierSelect | .groupSearch | .groupSelect | .partSearch | .partSelect | .vehicleSelect
  | .servicePartSelect | .serviceSearch | .serviceSelect | .displayTables | .ping | .other => true
  | _ => false

theorem netRoute_get (path : Text) : (netRoute .get path).reads = true := by
  have hroutes : ∀ entry ∈ netRoutes, entry.1 = Method.get → entry.2.2.reads = true := by decide
  unfold netRoute
  cases hfound : netRoutes.find? fun entry =>
      entry.1 == Method.get && (entry.2.1 : Text) == path with
  | none =>
    dsimp only
    split <;> rfl
  | some entry =>
    have hmethod := List.find?_some hfound
    rw [Bool.and_eq_true, beq_iff_eq] at hmethod
    exact hroutes entry (List.mem_of_find?_eq_some hfound) hmethod.1

/-- The sessions that are left when the session of a cookie may have been released. -/
def LeftSessions (route : Route) (req : Request) (before after : Sessions) : Prop :=
  ∀ id session, after id = some session ↔
    before id = some session ∧ ¬ (route = .release ∧ getSessionID req = some id)

/-- Such a handler leaves the database alone, and ends no session but the one of the
cookie that is released. -/
theorem handle_reads {p : Platform} {route : Route} (hroute : route.reads = true) (server : Server)
    (call : Call) :
    (handle p route server call).1.database = server.database ∧
      LeftSessions route call.req server.sessions (handle p route server call).1.sessions := by
  have hsame : ∀ {after : Server}, route ≠ .release → after = server →
      after.database = server.database ∧
        LeftSessions route call.req server.sessions after.sessions := by
    rintro after hne rfl
    exact ⟨rfl, fun _ _ => (and_iff_left fun h => hne h.1).symm⟩
  cases route with
  | release =>
    change (deauthenticate server call.req).1.database = server.database ∧
      LeftSessions .release call.req server.sessions (deauthenticate server call.req).1.sessions
    rw [deauthenticate_fst]
    refine ⟨rfl, fun id session => ?_⟩
    rw [release_eq_some_iff, ne_eq, eq_self, true_and]
  | checkSession => exact hsame (by simp) (checkSession_fst server call.req)
  | userMe => exact hsame (by simp) getLocalUserData_fst
  | userSearch => exact hsame (by simp) rfl
  | userSelect => exact hsame (by simp) rfl
  | supplierSearch => exact hsame (by simp) rfl
  | supplierSelect => exact hsame (by simp) rfl
  | groupSearch => exact hsame (by simp) rfl
  | groupSelect => exact hsame (by simp) rfl
  | partSearch => exact hsame (by simp) rfl
  | partSelect => exact hsame (by simp) rfl
  | vehicleSelect => exact hsame (by simp) rfl
  | servicePartSelect => exact hsame (by simp) rfl
  | serviceSearch => exact hsame (by simp) rfl
  | serviceSelect => exact hsame (by simp) rfl
  | displayTables => exact hsame (by simp) rfl
  | ping => exact hsame (by simp) rfl
  | other => exact hsame (by simp) rfl
  | _ => simp [Route.reads] at hroute

section Reading

variable {asserts : Bool} {p : Platform} {curl : Curl} {browser : Browser} {Client : Type}
  {pick : Method → Text → Option LinkedPage} {visit : PageVisit Client}

theorem backEndVisit_reads {request : Visit Client} (hmethod : visit.method = .get)
    (hrequest : visit.backEndVisit curl pick = some request) : request.route.reads = true := by
  obtain ⟨page, -, hpage⟩ := Option.bind_eq_some_iff.mp hrequest
  cases hwrapper : page.wrapper with
  | static data => simp [hwrapper] at hpage
  | forwarding translation destination =>
    simp only [hwrapper, Option.map_eq_some_iff] at hpage
    obtain ⟨target, -, rfl⟩ := hpage
    rw [hmethod]
    exact netRoute_get _

/-- The visit asks the back end something that it does not answer. -/
def Unanswered (asserts : Bool) (p : Platform) (curl : Curl)
    (pick : Method → Text → Option LinkedPage) (site : Site browser Client)
    (visit : PageVisit Client) : Prop :=
  ∃ world request, site = .both world ∧ visit.backEndVisit curl pick = some request ∧
    ¬ Answered asserts p request.route world.server (world.call request)

/-- The visit releases the session of its cookie. -/
def SignsOut (curl : Curl) (pick : Method → Text → Option LinkedPage) (id : Nat)
    (site : Site browser Client) (visit : PageVisit Client) : Prop :=
  ∃ world request, site = .both world ∧ visit.backEndVisit curl pick = some request ∧
    request.route = .release ∧ world.sessionID request.client = some id

variable [DecidableEq Client] {start : World browser Client} {visits : List (PageVisit Client)}
  {site : Site browser Client} {allowed : World browser Client → Visit Client → Prop}

/-- The back end is gone after a visit that it does not answer, and if it was before. -/
theorem step_server_none_iff :
    (site.step asserts p curl pick visit).server = none ↔
      Unanswered asserts p curl pick site visit ∨ site.server = none := by
  cases site with
  | both world =>
    have hnot : ∀ {request}, visit.backEndVisit curl pick = some request →
        Answered asserts p request.route world.server (world.call request) →
        ¬ Unanswered asserts p curl pick (.both world) visit := by
      rintro request hrequest hanswered ⟨_, other, hworld, hother, hunanswered⟩
      obtain rfl := Site.both.inj hworld
      obtain rfl := Option.some.inj (hrequest.symm.trans hother)
      exact hunanswered hanswered
    have hidle : visit.backEndVisit curl pick = none →
        ¬ Unanswered asserts p curl pick (.both world) visit := by
      rintro hnone ⟨_, request, -, hrequest, -⟩
      simp [hnone] at hrequest
    generalize hafter : (Site.both world).step asserts p curl pick visit = after
    cases step_both hafter with
    | idle hnone => simp [Site.server, hidle hnone]
    | refused hnone => simp [Site.server, hidle hnone]
    | answered hrequest hanswered => simp [Site.server, hnot hrequest hanswered]
    | failed hrequest hanswered => simp [Site.server, hnot hrequest hanswered]
    | alone hrequest hunanswered =>
      exact iff_of_true rfl (.inl ⟨world, _, rfl, hrequest, hunanswered⟩)
    | lost hrequest hunanswered =>
      exact iff_of_true rfl (.inl ⟨world, _, rfl, hrequest, hunanswered⟩)
  | alone jars =>
    refine iff_of_true ?_ (.inr rfl)
    generalize hafter : (Site.alone jars).step asserts p curl pick visit = after
    rcases step_alone hafter with rfl | rfl <;> rfl
  | ended server =>
    rw [step_ended, or_iff_right]
    rintro ⟨world, -, hsite, -⟩
    exact absurd hsite (by simp)

/-- What is left of the back end after a visit that only reads. -/
theorem step_reads (hmethod : visit.method = .get) {after : Server}
    (hafter : (site.step asserts p curl pick visit).server = some after) :
    ∃ server, site.server = some server ∧ after.database = server.database ∧
      ∀ id session, after.sessions id = some session ↔
        server.sessions id = some session ∧ ¬ SignsOut curl pick id site visit := by
  cases site with
  | both world =>
    have hidle : visit.backEndVisit curl pick = none → ∀ id,
        ¬ SignsOut curl pick id (.both world) visit := by
      rintro hnone id ⟨_, request, -, hrequest, -⟩
      simp [hnone] at hrequest
    have hreads : ∀ {request}, visit.backEndVisit curl pick = some request →
        (world.step asserts p request).server.database = world.server.database ∧
          ∀ id session, (world.step asserts p request).server.sessions id = some session ↔
            world.server.sessions id = some session ∧
              ¬ SignsOut curl pick id (.both world) visit := by
      intro request hrequest
      obtain ⟨hdatabase, hsessions⟩ := handle_reads (p := p) (backEndVisit_reads hmethod hrequest)
        world.server (world.call request)
      refine ⟨hdatabase, fun id session => (hsessions id session).trans (and_congr_right fun _ => ?_)⟩
      rw [not_iff_not]
      constructor
      · rintro ⟨hroute, hid⟩
        exact ⟨world, request, rfl, hrequest, hroute, hid⟩
      · rintro ⟨_, other, hworld, hother, hroute, hid⟩
        obtain rfl := Site.both.inj hworld
        obtain rfl := Option.some.inj (hrequest.symm.trans hother)
        exact ⟨hroute, hid⟩
    refine ⟨world.server, rfl, ?_⟩
    generalize hreached : (Site.both world).step asserts p curl pick visit = reached at hafter
    cases step_both hreached with
    | idle hnone =>
      obtain rfl := Option.some.inj hafter
      exact ⟨rfl, fun id _ => (and_iff_left (hidle hnone id)).symm⟩
    | refused hnone =>
      obtain rfl := Option.some.inj hafter
      exact ⟨rfl, fun id _ => (and_iff_left (hidle hnone id)).symm⟩
    | answered hrequest =>
      obtain rfl := Option.some.inj hafter
      exact hreads hrequest
    | failed hrequest =>
      obtain rfl := Option.some.inj hafter
      exact hreads hrequest
    | alone => exact absurd hafter (by simp [Site.server])
    | lost => exact absurd hafter (by simp [Site.server])
  | alone jars =>
    generalize hreached : (Site.alone jars).step asserts p curl pick visit = reached at hafter
    rcases step_alone hreached with rfl | rfl <;> exact absurd hafter (by simp [Site.server])
  | ended server =>
    rw [step_ended] at hafter
    refine ⟨after, hafter, rfl, fun id _ => (and_iff_left ?_).symm⟩
    rintro ⟨world, -, hsite, -⟩
    exact absurd hsite (by simp)

/-- Whatever pages are linked, a run of `GET` visits of any number of clients leaves the
database of a back end that still runs as it was, and its sessions are those of the start
but for the ones that a visit with their cookie has released: none is begun or changed.
The back end is gone, with the database, exactly when it did not answer one of the visits. -/
theorem gets_only_read (hrun : PageRun asserts p curl pick allowed start visits site)
    (hgets : ∀ visit ∈ visits, visit.method = .get) :
    (∀ server, site.server = some server → server.database = start.server.database ∧
      ∀ id session, server.sessions id = some session ↔ start.server.sessions id = some session ∧
        ¬ Run.Ever (Site.step asserts p curl pick) (.both start) (SignsOut curl pick id) visits) ∧
    (site.server = none ↔ Run.Ever (Site.step asserts p curl pick) (.both start)
      (Unanswered asserts p curl pick) visits) := by
  constructor
  · induction hrun with
    | nil =>
      intro server hserver
      obtain rfl := Option.some.inj hserver
      exact ⟨rfl, fun _ _ => (and_iff_left Run.not_standing_nil).symm⟩
    | @snoc visits site visit hbefore _ ih =>
      intro after hafter
      obtain ⟨server, hserver, hdatabase, hsessions⟩ := step_reads (hgets visit (by simp)) hafter
      obtain ⟨hkept, hleft⟩ := ih (fun other hother => hgets other (by simp [hother])) server hserver
      refine ⟨hdatabase.trans hkept, fun id session => ?_⟩
      rw [hsessions, hleft, Run.ever_append, ← hbefore.eq_foldl, not_or, and_assoc]
      exact and_congr_right fun _ => and_comm
  · refine Run.iff_standing (P := fun site => site.server = none) (by simp [Site.server]) ?_ hrun
    intro site visit _
    rw [step_server_none_iff, not_false_eq_true, and_true]

end Reading

theorem gets_only_read_guest :
    guestSeen.server.database = loggedIn.server.database ∧
      Run.Ever (Site.step true .integers .cutting sitePick) (.both loggedIn)
        (Unanswered true .integers .cutting sitePick) [homeVisit true, vehicleVisit] := by
  have hguest : PageRun true .integers .cutting sitePick (fun _ _ => True) loggedIn
      [homeVisit true] (.both guestSeen) := by
    rw [← step_guest]
    exact .snoc .nil fun _ _ _ _ => trivial
  have hvehicle : PageRun true .integers .cutting sitePick (fun _ _ => True) loggedIn
      [homeVisit true, vehicleVisit] (.alone guestSeen.jars) := by
    rw [← step_vehicle]
    exact .snoc hguest fun _ _ _ _ => trivial
  refine ⟨((gets_only_read hguest ?_).1 _ rfl).1, (gets_only_read hvehicle ?_).2.mp rfl⟩
  · simp [homeVisit]
  · simp [homeVisit, vehicleVisit]

/-! ## What a page shows -/

/-- What comes back of a request: a record, or the sentence for a path that the back end
does not know. -/
inductive Content where
  | record (w : ResponseWrapper)
  | sentence

/-- Nothing comes back of a request that is not answered. -/
structure Reply where
  headers : List (Text × Text) := []
  code : Int := 0
  content : Content := .record .empty

section Showing

variable {asserts : Bool} {p : Platform} {curl : Curl} {browser : Browser} {Client : Type}
  {pick : Method → Text → Option LinkedPage}

/-- What the handler of a request answers, as long as there is a back end. -/
def Site.reply (p : Platform) (site : Site browser Client) (request : Option (Visit Client)) :
    Reply :=
  match site, request with
  | .both world, some request =>
    match (handle p request.route world.server (world.call request)).2 with
    | .reply status response =>
      { headers := replyHeaders p request.route world.server (world.call request)
        code := status.code
        content := if request.route = .other then .sentence else .record (answerData response) }
    | _ => {}
  | _, _ => {}

/-- The page with this on it. -/
def Reply.page (reply : Reply) (out : Output) : Page where
  status := ofInt reply.code
  headers := reply.headers
  body := out.source
  warnings := out.warnings

variable {longMax : Nat} {nodes : List Node} {translation : Translation}
  (hnodes : Node.WfAll longMax nodes)
  (hparse : Translation.parse longMax (Node.printAll nodes) = .ok translation)

include hnodes hparse

omit hnodes hparse

variable [DecidableEq Client] {start : World browser Client} {visits : List (PageVisit Client)}
  {site : Site browser Client}

/-- The requests that are answered keep the database clean. -/
theorem Served.clean {world : World browser Client} (hp : p.PrintsNumbers)
    (hserved : Served asserts p curl pick cleanly start visits world)
    (hstart : CleanDatabase start.server.database) : CleanDatabase world.server.database := by
  refine Run.invariant (P := fun world => CleanDatabase world.server.database) hstart ?_ hserved
  rintro world request hclean ⟨⟨hcall, hquoted⟩, -⟩
  exact (handle_executes request.route _ _).keeps
    (fun _ _ hstatement => hstatement.clean hp hcall hquoted) hclean

end Showing

end WFA
