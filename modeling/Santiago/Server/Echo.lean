import Santiago.ReplyWire
import Santiago.Server.Answered

/-!
# Santiago.Server.Echo

The test programs, which answer a request with its own parameters.  A program
is what its handlers make of the parameters they are handed; `Serves` says that
the user of a request runs one.  `echo_answers` follows a request all the way:
from the packets that brought its parameters, through the hands of the user, to
the records that a web server reads.
-/

namespace Santiago

open Effect Bytes PacketSocket Connection Chunks

/-! ## The programs -/

namespace Echo

def contentType : Bytes := asciiBytes "Content-Type: text/plain\r\n\r\n"

/-- One round of the loop over the parameters. -/
def writeParam (param : Bytes × Bytes) : List UserEdit :=
  [.out param.1, .out (asciiBytes " \t"), .out param.2, .out (asciiBytes "\n")]

/-- What the handlers do in front of their `commit()`; they differ in the title. -/
def handleRequest (title : Bytes) (fcgiParams : ParamsMap) : List UserEdit :=
  [.out contentType, .out title] ++ fcgiParams.toList.flatMap writeParam ++ [.setAppStatus 0]

/-- `RequestHandlerA::handleRequest`, and `RequestHandlerB::handleRequest`. -/
def handlerA : ParamsMap → List UserEdit := handleRequest (asciiBytes "Handler A\n")
def handlerB : ParamsMap → List UserEdit := handleRequest (asciiBytes "Handler B\n")

def requestHandlerStreamProtocol : ParamsMap → List UserEdit :=
  handleRequest (asciiBytes "Echo - Unix Socket Version\n")

def requestHandlerTcpProtocol : ParamsMap → List UserEdit :=
  handleRequest (asciiBytes "Echo - Tcp Socket Version\n")

def documentUri : Bytes := asciiBytes "DOCUMENT_URI"

/-- `MyServer::route`: a request without the parameter fails its assertion. -/
def route (requestParams : ParamsMap) : Option (ParamsMap → List UserEdit) :=
  requestParams[documentUri]?.map fun uri =>
    if uri = asciiBytes "/server-tcp-echoA.fcgi" then handlerA else handlerB

/-- What a test program does with a request: its handlers write the title that
it picks, and it picks none when it fails. -/
def serve (title : ParamsMap → Option Bytes) (params : ParamsMap) : Option (List UserEdit) :=
  (title params).map fun t => handleRequest t params

/-- The title of the handler that `route` picks. -/
def routeTitle (requestParams : ParamsMap) : Option Bytes :=
  requestParams[documentUri]?.map fun uri =>
    if uri = asciiBytes "/server-tcp-echoA.fcgi" then asciiBytes "Handler A\n"
    else asciiBytes "Handler B\n"

/-- `MyServer` routes a request and runs the handler. -/
theorem route_eq (params : ParamsMap) :
    (route params).map (fun handler => handler params) = serve routeTitle params := by
  rw [route, serve, routeTitle, Option.map_map, Option.map_map]
  congr 1
  funext uri
  simp only [Function.comp]
  split <;> rfl

/-- The line of the page that is one parameter's. -/
def line (param : Bytes × Bytes) : Bytes :=
  param.1 ++ asciiBytes " \t" ++ param.2 ++ asciiBytes "\n"

/-- The page that the handlers write. -/
def page (title : Bytes) (fcgiParams : ParamsMap) : Bytes :=
  contentType ++ title ++ fcgiParams.toList.flatMap line

theorem after_writeParams (params : List (Bytes × Bytes)) (d : RequestData) :
    d.after (params.flatMap writeParam) =
      { d with outBuffer := d.outBuffer ++ params.flatMap line } := by
  induction params generalizing d with
  | nil => simp
  | cons param params ih =>
      rw [List.flatMap_cons, RequestData.after_append, ih]
      simp [writeParam, line, RequestData.after, UserEdit.apply]

/-- A handler leaves its page in the out buffer, and the status 0. -/
theorem after_handleRequest (title : Bytes) (params : ParamsMap) (d : RequestData) :
    d.after (handleRequest title params) =
      { d with outBuffer := d.outBuffer ++ page title params, appStatus := 0 } := by
  have htitle : d.after [.out contentType, .out title] =
      { d with outBuffer := d.outBuffer ++ contentType ++ title } := rfl
  rw [handleRequest, RequestData.after_append, RequestData.after_append, htitle, after_writeParams]
  simp [RequestData.after, UserEdit.apply, page]

end Echo

/-! ## A user who runs a program -/

/-- The change leaves the parameters alone. -/
def UserEdit.keepsParams : UserEdit → Bool
  | .fcgiParams _ => false
  | _ => true

theorem RequestData.paramsMap_after {changes : List UserEdit}
    (h : ∀ change ∈ changes, change.keepsParams = true) (d : RequestData) :
    (d.after changes).paramsMap = d.paramsMap := by
  induction changes generalizing d with
  | nil => rfl
  | cons change changes ih =>
      have hkeeps := h change (List.mem_cons_self ..)
      refine (ih (fun x hx => h x (List.mem_cons_of_mem _ hx)) _).trans ?_
      cases change with
      | fcgiParams => cases hkeeps
      | _ => rfl

namespace Server

/-- What `getFCGIParams()` returns, when it returns: the map of the object. -/
def getFCGIParams (s : Server) (q : Nat) : Option ParamsMap :=
  (s.granted q).bind fun x => (s.entryAt x.1.home x.1.requestId).bind fun e =>
    if e.ptr = x.2 then some e.data.paramsMap else none

/-- The user of the request `q` runs the program: at some moment, before he has
changed the parameters, he looks at them, and all that he writes over the run is
what the program makes of them. -/
def Serves (program : ParamsMap → Option (List UserEdit)) (q : Nat)
    (tr : List (Fired Server Step)) : Prop :=
  ∃ before f after params changes, tr = before ++ f :: after ∧
    f.pre.getFCGIParams q = some params ∧
    (∀ change ∈ before.flatMap (changesBy q), change.keepsParams = true) ∧
    program params = some changes ∧ tr.flatMap (changesBy q) = changes

/-- Who asks for the parameters of a request gets those of the object that was
handed out with it, with his own changes. -/
theorem Written.getFCGIParams {tr : List (Fired Server Step)} {s : Server} {q : Nat}
    {params : ParamsMap} (hw : Written tr s) (h : s.getFCGIParams q = some params) :
    ∃ c r ptr d, Handed tr q c r ptr d ∧
      params = (d.after (tr.flatMap (changesBy q))).paramsMap := by
  obtain ⟨⟨rq, ptr⟩, hgranted, hobject⟩ := Option.bind_eq_some_iff.mp h
  obtain ⟨e, he, hobject⟩ := Option.bind_eq_some_iff.mp hobject
  split at hobject
  · next hptr =>
      obtain ⟨hq, hg⟩ := grants_of_granted hgranted
      have hmade := hw.request q rq ptr hq hg.dataWeakPtr_eq
      have hready := (hw.made _ _ _ _ hmade).2.2 _ _ e he hptr
      obtain ⟨q', _, d, hhanded, _, hafter⟩ := hw.ready _ _ e he hready
      rw [hptr] at hhanded
      obtain rfl := hw.once _ _ _ _ _ _ _ hmade ⟨d, hhanded⟩
      refine ⟨_, _, _, d, hhanded, ?_⟩
      rw [← hafter]
      exact (Option.some.inj hobject).symm
  · cases hobject

/-! ## From the client to the client -/

/-- The id of a request that begins is that of a packet. -/
theorem began_lt {tr : List (Fired Server Step)} {s : Server} {c : Nat} {k : AcceptedConnection}
    (h : machine.Run init tr s) (hk : s.connections c = some k) {r ptr : Nat}
    (hbegan : .began r ptr ∈ eventsOf c (machine.trace tr)) : r < 65536 := by
  revert r ptr
  refine connection_inv (fun _ t _ => ∀ {r ptr : Nat}, Event.began r ptr ∈ t →
    r < 65536) ?_ ?_ ?_
    h hk
  · intro s _ r ptr hmem
    cases hmem
  · intro ls t s l _ hj _ hm r ptr hmem
    obtain hmem | hmem := List.mem_append.mp hmem
    · exact hj hmem
    · exact (hm.life.turnover.of_began hmem).1
  · exact fun _ _ _ _ hj => hj

/-- The reply to a request whose user runs a program. -/
theorem reply_of_serves {program : ParamsMap → Option (List UserEdit)}
    {tr : List (Fired Server Step)} {s : Server} {l : Step} {q c r ptr : Nat}
    (h : machine.Run init tr s) (he : machine.enabled s l = true) (hmade : Made tr q c r ptr)
    (hserves : Serves program q tr) (hsend : (c, .sendReply r ptr) ∈ (machine.act l s).events) :
    ∃ before after later d status changes, eventsOf c (machine.trace tr) =
        before ++ .began r ptr :: after ++ .requestReady r ptr d :: later ∧
      (∀ ptr', .began r ptr' ∉ after) ∧ r < 65536 ∧
      program (paramsOf (payload (chunks r fcgiParams after))) = some changes ∧
      written c (machine.act l s).events <+:
        blockBytes (replyRecords r ((RequestData.new status).after changes)) ∧
      (machine.survives s l = true →
        (∀ part, (c, .writeError part) ∉ (machine.act l s).events) →
        written c (machine.act l s).events =
          blockBytes (replyRecords r ((RequestData.new status).after changes))) := by
  have hi := invariant_of_run h
  have hw := written_of_run h
  obtain ⟨q', status, d, hhanded, hfresh, hreply⟩ := hw.reply hi he hsend
  obtain rfl := hw.once _ _ _ _ _ _ _ hmade ⟨d, hhanded⟩
  obtain ⟨hnot, _⟩ | ⟨_, k, _, _, _, _, rfl, hk, _, _, _, _, honly, _⟩ :=
    sendReply_cases hi he
  · exact absurd hsend (hnot c r ptr)
  obtain ⟨rfl, rfl, rfl⟩ := honly c r ptr hsend
  -- the parameters he looked at are those that were handed out
  obtain ⟨before, f, after, params, changes, rfl, hparams, hkeeps, hprogram, hchanges⟩ :=
    hserves
  obtain ⟨hbefore, _⟩ := h.split
  obtain ⟨c', r', ptr', d', ⟨g, hg, hhanded'⟩, rfl⟩ :=
    (written_of_run hbefore).getFCGIParams hparams
  obtain ⟨rfl, rfl, rfl, rfl⟩ :=
    hw.same _ _ _ _ _ _ _ _ _ hhanded ⟨g, List.mem_append_left _ hg, hhanded'⟩
  rw [RequestData.paramsMap_after hkeeps] at hprogram
  obtain ⟨xs, later, hsplit⟩ := List.append_of_mem hhanded.announced
  obtain ⟨earlier, since, rfl, hlast, _, _, _, _, hmap, _⟩ :=
    (received_of_run h hk).brought _ _ _ _ _ hsplit
  have hbegan : .began r' ptr' ∈ eventsOf c' (machine.trace (before ++ f :: after)) := by
    rw [hsplit]
    simp
  rw [hchanges, replyRecords_congr r' (RequestData.output_after changes hfresh)] at hreply
  exact ⟨earlier, since, later, d', status, changes, hsplit, hlast, began_lt h hk hbegan,
    by rw [← hmap]; exact hprogram, hreply⟩

/-- **The echo**, from the client to the client.  Whatever goes on on the other
connections and with the other requests: when a test program serves a request,
its reply is the page for the parameters that the packets of the request have
brought between its beginning and its end, all of them when they are less than
2^32 bytes.  Where neither a write fails nor the process ends in this step, a
web server reads the page, when that has less than 2^32 bytes, off the STDOUT
records, nothing off the STDERR records, and the status 0. -/
theorem echo_answers {title : ParamsMap → Option Bytes} {tr : List (Fired Server Step)}
    {s : Server} {l : Step} {q c r ptr : Nat} (h : machine.Run init tr s)
    (he : machine.enabled s l = true) (hmade : Made tr q c r ptr)
    (hserves : Serves (Echo.serve title) q tr)
    (hsend : (c, .sendReply r ptr) ∈ (machine.act l s).events) :
    ∃ before after later d t page, eventsOf c (machine.trace tr) =
        before ++ .began r ptr :: after ++ .requestReady r ptr d :: later ∧
      (∀ ptr', .began r ptr' ∉ after) ∧
      ((payload (chunks r fcgiParams after)).length < 2 ^ 32 →
        Spells (payload (chunks r fcgiParams after))
          (paramsOf (payload (chunks r fcgiParams after)))) ∧
      title (paramsOf (payload (chunks r fcgiParams after))) = some t ∧
      page = Echo.page t (paramsOf (payload (chunks r fcgiParams after))) ∧
      written c (machine.act l s).events <+:
        blockBytes (replyRecords r { RequestData.new 0 with outBuffer := page }) ∧
      (machine.survives s l = true →
        (∀ part, (c, .writeError part) ∉ (machine.act l s).events) →
        page.length < 2 ^ 32 → ∃ outs errs outEnd errEnd last,
          ReplyForm r page [] 0 outs errs outEnd errEnd last ∧
          Reads (written c (machine.act l s).events)
            ((outs ++ errs ++ [outEnd, errEnd, last]).map WireRecord.packet) []) := by
  obtain ⟨before, after, later, d, status, changes, hsplit, hlast, hr, hprogram,
    hprefix, hwhole⟩ :=
    reply_of_serves h he hmade hserves hsend
  obtain ⟨t, ht, rfl⟩ := Option.map_eq_some_iff.mp hprogram
  have hpage : ((RequestData.new status).after (Echo.handleRequest t
      (paramsOf (payload (chunks r fcgiParams after))))).output = RequestData.output
        { RequestData.new 0 with
          outBuffer := Echo.page t (paramsOf (payload (chunks r fcgiParams after))) } := by
    rw [Echo.after_handleRequest]
    rfl
  rw [replyRecords_congr r hpage] at hprefix hwhole
  refine ⟨before, after, later, d, t, _, hsplit, hlast, spells_paramsOf, ht, rfl, hprefix,
    fun hv herror hlen => ?_⟩
  obtain ⟨outs, errs, outEnd, errEnd, last, hform, hwire⟩ :=
    @exists_replyForm r hr { RequestData.new 0 with
      outBuffer := Echo.page t (paramsOf (payload (chunks r fcgiParams after))) } hlen
      (Nat.two_pow_pos 32)
  refine ⟨outs, errs, outEnd, errEnd, last, hform, ?_⟩
  rw [hwhole hv herror, blockBytes, ← hwire]
  exact reads_wire _

/-- A request whose one parameter is `DOCUMENT_URI`, with the value `/`. -/
def slash : Bytes := [12, 1] ++ Echo.documentUri ++ asciiBytes "/"

/-- `MyServer` answers it with `RequestHandlerB`. -/
theorem echo_answers_slash : ∃ tr s, machine.Run init tr s ∧
    ((written 0 (machine.act (.strand 0 .runTask) s).events).drop 36).take 10 =
      asciiBytes "Handler B\n" ∧
    ∃ before after later d t, eventsOf 0 (machine.trace tr) =
        before ++ .began 1 0 :: after ++ .requestReady 1 0 d :: later ∧
      Echo.routeTitle (paramsOf (payload (chunks 1 fcgiParams after))) = some t ∧
      written 0 (machine.act (.strand 0 .runTask) s).events <+: blockBytes (replyRecords 1
        { RequestData.new 0 with
          outBuffer := Echo.page t (paramsOf (payload (chunks 1 fcgiParams after))) }) := by
  obtain ⟨tr, s, hrun, hs⟩ := Machine.exists_run_of_exec machine init
    ([.accept [] fun _ => 0, .strand 0 (.handleRead false ([1, 1, 0, 1, 0, 8, 0, 0,
        0, 1, 1, 0, 0, 0, 0, 0, 1, 4, 0, 1, 0, 15, 0, 0] ++ slash ++
        [1, 4, 0, 1, 0, 0, 0, 0, 1, 5, 0, 1, 0, 0, 0, 0])),
      .strand 0 .nextPacket, .strand 0 .nextPacket, .strand 0 .nextPacket, .strand 0 .nextPacket,
      .strand 0 .nextPacket, .acceptorTask true] ++
      (Echo.handlerB (paramsOf slash)).map (Step.edit 0) ++ [.commit 0])
    (fun tr s => machine.enabled s (.strand 0 .runTask) &&
      (decide ((0, Event.sendReply 1 0) ∈ (machine.act (.strand 0 .runTask) s).events) &&
      ((tr.any fun f => f.pre.nextRequest = 0 &&
        (ConnectionData.announcements (eventsOf 0 (machine.observed f))).any fun x =>
          x.1 = 1 && x.2.1 = 0) &&
      ((tr[8]?).any (fun f => f.pre.getFCGIParams 0 = some (paramsOf slash)) &&
      (decide ((tr.take 8).flatMap (changesBy 0) = []) &&
      (decide (Echo.serve Echo.routeTitle (paramsOf slash) = some (tr.flatMap (changesBy 0))) &&
      decide (((written 0 (machine.act (.strand 0 .runTask) s).events).drop 36).take 10 =
        asciiBytes "Handler B\n")))))))
    (by decide +kernel)
  simp only [Bool.and_eq_true, decide_eq_true_eq, List.any_eq_true, Option.any_eq_true,
    Prod.exists] at hs
  obtain ⟨he, hsend, ⟨f, hf, hnext, r, ptr, d, hmem, rfl, rfl⟩, ⟨g, hg, hparams⟩,
    hnone, hchanges,
    hbytes⟩ := hs
  have hmade : Made tr 0 0 1 0 := by
    rw [mem_announcements] at hmem
    exact ⟨d, f, hf, hnext, by simpa [eventsOf] using hmem⟩
  have hserves : Serves (Echo.serve Echo.routeTitle) 0 tr := by
    obtain ⟨hlt, rfl⟩ := List.getElem?_eq_some_iff.mp hg
    refine ⟨tr.take 8, tr[8], tr.drop 9, _, _, ?_, hparams, by simp [hnone], hchanges, rfl⟩
    rw [← List.drop_eq_getElem_cons hlt, List.take_append_drop]
  obtain ⟨before, after, later, d, t, _, hsplit, _, _, ht, rfl, hprefix, _⟩ :=
    echo_answers hrun he hmade hserves hsend
  exact ⟨tr, s, hrun, hbytes, before, after, later, d, t, hsplit, ht, hprefix⟩

end Server

end Santiago
