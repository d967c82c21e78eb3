import PrivmxEndpoint.DataIntegrity

/-!
# Listing files, messages and entries

The store, the thread and the kvdb module list their items with the same three
loops.  The first one checks and decrypts every item: it appends to the results
for each item, and to the data integrity objects only if the item got as far as
its decryption.  The second one builds a verification request for every result
of status zero and takes the bridge identity from the object at the *same
index*.  The third one writes the verdicts back.

An item that fails its integrity check, or whose decryption throws, leaves no
object behind, and every later index is off by one.  The listing is aligned
exactly if each item of status zero finds an object with its own bridge
identity at its index (`ItemKind.aligned_iff`), in particular if no failed item
precedes one of status zero.
-/

namespace PrivmxEndpoint

/-- The part of a public item that says which item it is. -/
structure ItemInfo where
  containerId : Bytes
  itemId : Bytes
  createDate : Int
  author : Bytes
  deriving Repr, DecidableEq

/-- `File`, `Message` and `KvdbEntry`: what they have in common, and the rest. -/
structure LibItem (κ : Type) where
  info : ItemInfo
  content : κ
  authorPubKey : Bytes
  statusCode : Nat
  deriving Repr, DecidableEq

/-- What the three listings do differently: the checks, the decryption, the
conversion of an item that is not decrypted, and which exceptions of an item
are turned into its status. -/
structure ItemKind (ι κ : Type) where
  validateDataIntegrity : ι → Nat
  /-- The key lookup, and the decryption and conversion with that key. -/
  decryptAndConvert : ι → Except EndpointException (LibItem κ × DataIntegrityObject)
  /-- `convertServer…ToLib…(item, {}, {}, {}, {}, statusCode)`. -/
  convertServerItem : ι → Nat → LibItem κ
  handle : EndpointException → Except EndpointException ErrorCode
  statusCode_convertServerItem : ∀ item status,
    (convertServerItem item status).statusCode = status

/-- What can end a listing. -/
inductive ListingError
  | thrown (e : EndpointException)
  /-- A vector is indexed behind its end. -/
  | indexOutOfRange
  deriving DecidableEq

/-- The local variables of the first loop. -/
structure ListingState (κ : Type) where
  result : List (LibItem κ)
  dios : List DataIntegrityObject
  duplicationCheck : List Bytes

/-- The digits of a number, as `std::to_string` writes them. -/
def decimal (n : Int) : Bytes :=
  (toString n).toList.map fun c => UInt8.ofNat c.toNat

/-- `fullRandomId`. -/
def DataIntegrityObject.fullRandomId (dio : DataIntegrityObject) : Bytes :=
  dio.randomId ++ [45] ++ decimal dio.timestamp

variable {ι κ : Type}

/-- The checked decryption of one item, with the handlers around it: the item
and its data integrity object, or the status that the item fails with. -/
def ItemKind.attempt (K : ItemKind ι κ) (item : ι) :
    Except EndpointException (Except ErrorCode (LibItem κ × DataIntegrityObject)) :=
  if h : K.validateDataIntegrity item = 0 then
    match K.decryptAndConvert item with
    | .ok decrypted => .ok (.ok decrypted)
    | .error e => (K.handle e).map .error
  else
    .ok (.error ⟨K.validateDataIntegrity item, h⟩)

/-- One round of the first loop. -/
def ItemKind.processItem (K : ItemKind ι κ) (s : ListingState κ) (item : ι) :
    Except EndpointException (ListingState κ) :=
  match K.attempt item with
  | .error e => .error e
  | .ok (.error code) => .ok { s with result := s.result ++ [K.convertServerItem item code.1] }
  | .ok (.ok (x, dio)) =>
      if dio.fullRandomId ∈ s.duplicationCheck then
        .ok
          { s with
            result := s.result ++ [{ x with statusCode := dataIntegrityObjectDuplicated.1 }]
            dios := s.dios ++ [dio] }
      else
        .ok
          { result := s.result ++ [x]
            dios := s.dios ++ [dio]
            duplicationCheck := s.duplicationCheck ++ [dio.fullRandomId] }

/-- The first loop. -/
def ItemKind.processItems (K : ItemKind ι κ) (s : ListingState κ) :
    List ι → Except EndpointException (ListingState κ)
  | [] => .ok s
  | item :: items =>
      match K.processItem s item with
      | .error e => .error e
      | .ok s => K.processItems s items

/-- The request for one result. -/
def LibItem.verificationRequest (x : LibItem κ) (contextId : Bytes)
    (bridgeIdentity : Option BridgeIdentity) : VerificationRequest where
  contextId := contextId
  senderId := x.info.author
  senderPubKey := x.authorPubKey
  date := x.info.createDate
  bridgeIdentity := bridgeIdentity

/-- The second loop, from index `i` on. -/
def verifierInput (contextId : Bytes) (dios : List DataIntegrityObject) (i : Nat) :
    List (LibItem κ) → Except ListingError (List VerificationRequest)
  | [] => .ok []
  | x :: result =>
      if x.statusCode = 0 then
        match dios[i]? with
        | none => .error .indexOutOfRange
        | some dio =>
            match verifierInput contextId dios (i + 1) result with
            | .error e => .error e
            | .ok requests => .ok (x.verificationRequest contextId dio.bridgeIdentity :: requests)
      else
        verifierInput contextId dios (i + 1) result

/-- The third loop, from verdict `j` on. -/
def writeVerdicts (verified : List Bool) (j : Nat) :
    List (LibItem κ) → Except ListingError (List (LibItem κ))
  | [] => .ok []
  | x :: result =>
      if x.statusCode = 0 then
        match verified[j]? with
        | none => .error .indexOutOfRange
        | some verdict =>
            match writeVerdicts verified (j + 1) result with
            | .error e => .error e
            | .ok result =>
                .ok ({ x with
                  statusCode := if verdict then 0 else userVerificationFailure.1 } :: result)
      else
        match writeVerdicts verified j result with
        | .error e => .error e
        | .ok result => .ok (x :: result)

/-- `validateDecryptAndConvert…`: the three loops. -/
def ItemKind.validateDecryptAndConvert (K : ItemKind ι κ) (contextId : Bytes)
    (userVerifier : UserVerifierInterface) (items : List ι) :
    Except ListingError (List (LibItem κ)) :=
  match K.processItems ⟨[], [], []⟩ items with
  | .error e => .error (.thrown e)
  | .ok s =>
      match verifierInput contextId s.dios 0 s.result with
      | .error e => .error e
      | .ok requests =>
          match UserVerifier.verify userVerifier requests with
          | .error e => .error (.thrown e)
          | .ok verified => writeVerdicts verified 0 s.result

/-! ## What the loops compute -/

/-- The outcome of an item whose exceptions are handled. -/
def ItemKind.outcome (K : ItemKind ι κ) (item : ι) :
    Except ErrorCode (LibItem κ × DataIntegrityObject) :=
  match K.attempt item with
  | .ok outcome => outcome
  | .error e => .error e.statusCode

/-- The exceptions of these items are turned into their status. -/
def ItemKind.Handles (K : ItemKind ι κ) (items : List ι) : Prop :=
  ∀ item ∈ items, ∃ outcome, K.attempt item = .ok outcome

/-- The data integrity object of an item that got as far as its decryption. -/
def ItemKind.dio (K : ItemKind ι κ) (item : ι) : Option DataIntegrityObject :=
  (K.outcome item).toOption.map Prod.snd

/-- The result for an item when these full random ids came before. -/
def ItemKind.resultAt (K : ItemKind ι κ) (seen : List Bytes) (item : ι) : LibItem κ :=
  match K.outcome item with
  | .error code => K.convertServerItem item code.1
  | .ok (x, dio) =>
      if dio.fullRandomId ∈ seen then
        { x with statusCode := dataIntegrityObjectDuplicated.1 }
      else
        x

/-- The full random ids of a list of items. -/
def ItemKind.fullRandomIds (K : ItemKind ι κ) (items : List ι) : List Bytes :=
  (items.filterMap K.dio).map DataIntegrityObject.fullRandomId

/-- The results before verification. -/
def ItemKind.results (K : ItemKind ι κ) (seen : List Bytes) : List ι → List (LibItem κ)
  | [] => []
  | item :: items =>
      K.resultAt seen item :: K.results (seen ++ K.fullRandomIds [item]) items

theorem ItemKind.length_results (K : ItemKind ι κ) (seen : List Bytes) (items : List ι) :
    (K.results seen items).length = items.length := by
  induction items generalizing seen with
  | nil => rfl
  | cons item items ih => rw [ItemKind.results, List.length_cons, ih, List.length_cons]

/-- The result at an index depends on the item there and the ids before it. -/
theorem ItemKind.getElem?_results (K : ItemKind ι κ) (seen : List Bytes) (items : List ι)
    (i : Nat) :
    (K.results seen items)[i]? =
      items[i]?.map (K.resultAt (seen ++ K.fullRandomIds (items.take i))) := by
  induction items generalizing seen i with
  | nil => rfl
  | cons item items ih =>
      cases i with
      | zero => simp [ItemKind.results, ItemKind.fullRandomIds]
      | succ i =>
          have hids : K.fullRandomIds ((item :: items).take (i + 1)) =
              K.fullRandomIds [item] ++ K.fullRandomIds (items.take i) := by
            simp only [ItemKind.fullRandomIds, List.take_succ_cons, ← List.map_append,
              ← List.filterMap_append, List.singleton_append]
          rw [ItemKind.results, List.getElem?_cons_succ, List.getElem?_cons_succ, ih, hids,
            List.append_assoc]

/-- **The first loop.** -/
theorem ItemKind.processItems_eq (K : ItemKind ι κ) {items : List ι} (hitems : K.Handles items)
    (s : ListingState κ) (seen : List Bytes)
    (hseen : ∀ id, id ∈ s.duplicationCheck ↔ id ∈ seen) :
    ∃ check, K.processItems s items =
      .ok
        { result := s.result ++ K.results seen items
          dios := s.dios ++ items.filterMap K.dio
          duplicationCheck := check } := by
  induction items generalizing s seen with
  | nil => exact ⟨s.duplicationCheck, by simp [ItemKind.processItems, ItemKind.results]⟩
  | cons item items ih =>
      obtain ⟨o, ho⟩ := hitems item List.mem_cons_self
      have hrest : K.Handles items := fun x hx => hitems x (List.mem_cons_of_mem _ hx)
      have hout : K.outcome item = o := by simp only [ItemKind.outcome, ho]
      cases o with
      | error code =>
          have hdio : K.dio item = none := by rw [ItemKind.dio, hout]; rfl
          obtain ⟨check, hcheck⟩ := ih hrest
            { s with result := s.result ++ [K.convertServerItem item code.1] } seen hseen
          refine ⟨check, ?_⟩
          simp only [ItemKind.processItems, ItemKind.processItem, ho, hcheck, ItemKind.results,
            ItemKind.resultAt, hout, ItemKind.fullRandomIds, List.filterMap_cons, hdio,
            List.filterMap_nil, List.map_nil, List.append_nil, List.append_assoc,
            List.singleton_append]
      | ok decrypted =>
          obtain ⟨x, dio⟩ := decrypted
          have hdio : K.dio item = some dio := by rw [ItemKind.dio, hout]; rfl
          have hids : K.fullRandomIds [item] = [dio.fullRandomId] := by
            simp [ItemKind.fullRandomIds, hdio]
          by_cases hdup : dio.fullRandomId ∈ s.duplicationCheck
          · obtain ⟨check, hcheck⟩ := ih hrest
              { s with
                result := s.result ++ [{ x with statusCode := dataIntegrityObjectDuplicated.1 }]
                dios := s.dios ++ [dio] }
              (seen ++ [dio.fullRandomId]) (fun id => by
                rw [List.mem_append, List.mem_singleton, ← hseen id]
                exact ⟨Or.inl, fun h => h.elim (fun h => h) (fun h => h ▸ hdup)⟩)
            refine ⟨check, ?_⟩
            simp only [ItemKind.processItems, ItemKind.processItem, ho, if_pos hdup, hcheck,
              ItemKind.results, ItemKind.resultAt, hout, if_pos ((hseen _).mp hdup), hids,
              List.filterMap_cons, hdio, List.append_assoc, List.singleton_append]
          · obtain ⟨check, hcheck⟩ := ih hrest
              { result := s.result ++ [x]
                dios := s.dios ++ [dio]
                duplicationCheck := s.duplicationCheck ++ [dio.fullRandomId] }
              (seen ++ [dio.fullRandomId]) (fun id => by
                rw [List.mem_append, List.mem_append, hseen id])
            refine ⟨check, ?_⟩
            simp only [ItemKind.processItems, ItemKind.processItem, ho, if_neg hdup, hcheck,
              ItemKind.results, ItemKind.resultAt, hout, if_neg (fun h => hdup ((hseen _).mpr h)),
              hids, List.filterMap_cons, hdio, List.append_assoc, List.singleton_append]

/-- The number of results of status zero before an index: the index of the
request and of the verdict for a result of status zero. -/
def rank (result : List (LibItem κ)) (i : Nat) : Nat :=
  (result.take i).countP (·.statusCode = 0)

theorem rank_cons_succ (x : LibItem κ) (result : List (LibItem κ)) (i : Nat) :
    rank (x :: result) (i + 1) = (if x.statusCode = 0 then 1 else 0) + rank result i := by
  rw [rank, List.take_succ_cons, List.countP_cons, rank, Nat.add_comm]
  simp only [decide_eq_true_eq]

/-- **The second loop** reads in range if every result of status zero does. -/
theorem verifierInput_ok (contextId : Bytes) (dios : List DataIntegrityObject)
    (result : List (LibItem κ)) (i : Nat)
    (h : ∀ k x, result[k]? = some x → x.statusCode = 0 → ∃ dio, dios[i + k]? = some dio) :
    ∃ requests, verifierInput contextId dios i result = .ok requests := by
  induction result generalizing i with
  | nil => exact ⟨[], rfl⟩
  | cons x result ih =>
      obtain ⟨requests, hrest⟩ := ih (i + 1) (fun k y hy hzero => by
        obtain ⟨dio, hdio⟩ := h (k + 1) y (by simpa using hy) hzero
        exact ⟨dio, by rwa [Nat.add_assoc, Nat.add_comm 1 k]⟩)
      by_cases hx : x.statusCode = 0
      · obtain ⟨dio, hdio⟩ := h 0 x rfl hx
        rw [Nat.add_zero] at hdio
        refine ⟨x.verificationRequest contextId dio.bridgeIdentity :: requests, ?_⟩
        rw [verifierInput, if_pos hx, hdio]
        simp only [hrest]
      · exact ⟨requests, by rw [verifierInput, if_neg hx, hrest]⟩

/-- What the second loop has read, when it ends. -/
theorem verifierInput_spec {contextId : Bytes} {dios : List DataIntegrityObject}
    {result : List (LibItem κ)} {i : Nat} {requests : List VerificationRequest}
    (h : verifierInput contextId dios i result = .ok requests) :
    requests.length = result.countP (·.statusCode = 0) ∧
      ∀ k x, result[k]? = some x → x.statusCode = 0 →
        ∃ dio, dios[i + k]? = some dio ∧
          requests[rank result k]? = some (x.verificationRequest contextId dio.bridgeIdentity) := by
  induction result generalizing i requests with
  | nil =>
      cases h
      exact ⟨rfl, fun k x hx => by simp at hx⟩
  | cons y result ih =>
      rw [verifierInput] at h
      by_cases hy : y.statusCode = 0
      · rw [if_pos hy] at h
        split at h
        · cases h
        · rename_i dio hdio
          split at h
          · cases h
          · rename_i rest hrest
            cases h
            obtain ⟨hlen, hall⟩ := ih hrest
            refine ⟨by rw [List.length_cons, hlen, List.countP_cons, if_pos (by simpa using hy)],
              fun k x hx hzero => ?_⟩
            cases k with
            | zero =>
                obtain rfl : y = x := by simpa using hx
                exact ⟨dio, hdio, rfl⟩
            | succ k =>
                obtain ⟨dio', hdio', hreq⟩ := hall k x (by simpa using hx) hzero
                refine ⟨dio', by rwa [Nat.add_assoc, Nat.add_comm 1 k] at hdio', ?_⟩
                rw [rank_cons_succ, if_pos hy, Nat.add_comm, List.getElem?_cons_succ, hreq]
      · rw [if_neg hy] at h
        obtain ⟨hlen, hall⟩ := ih h
        refine ⟨by rw [hlen, List.countP_cons, if_neg (by simpa using hy), Nat.add_zero],
          fun k x hx hzero => ?_⟩
        cases k with
        | zero =>
            obtain rfl : y = x := by simpa using hx
            exact absurd hzero hy
        | succ k =>
            obtain ⟨dio', hdio', hreq⟩ := hall k x (by simpa using hx) hzero
            refine ⟨dio', by rwa [Nat.add_assoc, Nat.add_comm 1 k] at hdio', ?_⟩
            rw [rank_cons_succ, if_neg hy, Nat.zero_add, hreq]

/-- The result that a verdict makes of a result. -/
def LibItem.withVerdict (x : LibItem κ) (verdict : Bool) : LibItem κ :=
  { x with statusCode := if verdict then 0 else userVerificationFailure.1 }

/-- **The third loop** writes each verdict to its own result. -/
theorem writeVerdicts_spec (verified : List Bool) (result : List (LibItem κ)) (j : Nat)
    (h : j + result.countP (·.statusCode = 0) ≤ verified.length) :
    ∃ written, writeVerdicts verified j result = .ok written ∧ written.length = result.length ∧
      ∀ k x, result[k]? = some x →
        (x.statusCode ≠ 0 → written[k]? = some x) ∧
          (x.statusCode = 0 → ∃ verdict, verified[j + rank result k]? = some verdict ∧
            written[k]? = some (x.withVerdict verdict)) := by
  induction result generalizing j with
  | nil => exact ⟨[], rfl, rfl, fun k x hx => by simp at hx⟩
  | cons y result ih =>
      by_cases hy : y.statusCode = 0
      · rw [List.countP_cons, if_pos (by simpa using hy)] at h
        obtain ⟨written, hwritten, hlen, hall⟩ := ih (j + 1) (by omega)
        have hj : verified[j]? = some verified[j] := List.getElem?_eq_getElem (by omega)
        refine ⟨y.withVerdict verified[j] :: written, ?_, by simp [hlen], fun k x hx => ?_⟩
        · rw [writeVerdicts, if_pos hy, hj]
          simp only [hwritten]
          rfl
        · cases k with
          | zero =>
              obtain rfl : y = x := by simpa using hx
              exact ⟨fun hne => absurd hy hne, fun _ => ⟨verified[j], hj, rfl⟩⟩
          | succ k =>
              rw [rank_cons_succ, if_pos hy, ← Nat.add_assoc]
              exact hall k x (by simpa using hx)
      · rw [List.countP_cons, if_neg (by simpa using hy), Nat.add_zero] at h
        obtain ⟨written, hwritten, hlen, hall⟩ := ih j h
        refine ⟨y :: written, ?_, by simp [hlen], fun k x hx => ?_⟩
        · rw [writeVerdicts, if_neg hy, hwritten]
        · cases k with
          | zero =>
              obtain rfl : y = x := by simpa using hx
              exact ⟨fun _ => rfl, fun hzero => absurd hzero hy⟩
          | succ k =>
              rw [rank_cons_succ, if_neg hy, Nat.zero_add]
              exact hall k x (by simpa using hx)

/-! ## One item alone -/

theorem ItemKind.outcome_eq_ok_iff (K : ItemKind ι κ) {item : ι} {x : LibItem κ}
    {dio : DataIntegrityObject} :
    K.outcome item = .ok (x, dio) ↔
      K.validateDataIntegrity item = 0 ∧ K.decryptAndConvert item = .ok (x, dio) := by
  unfold ItemKind.outcome ItemKind.attempt
  by_cases hvalid : K.validateDataIntegrity item = 0
  · rw [dif_pos hvalid]
    cases K.decryptAndConvert item with
    | ok decrypted => simp [hvalid]
    | error e =>
        dsimp only
        cases K.handle e with
        | ok code => simp [Except.map]
        | error e' => simp [Except.map]
  · rw [dif_neg hvalid]
    simp [hvalid]

/-- The listing of one item that fails its check, or whose exception is handled. -/
theorem ItemKind.validateDecryptAndConvert_failed (K : ItemKind ι κ) (contextId : Bytes)
    (userVerifier : UserVerifierInterface) {item : ι} {code : ErrorCode}
    (hitem : K.attempt item = .ok (.error code)) :
    K.validateDecryptAndConvert contextId userVerifier [item] =
      match UserVerifier.verify userVerifier [] with
      | .error e => .error (.thrown e)
      | .ok _ => .ok [K.convertServerItem item code.1] := by
  have hstatus : (K.convertServerItem item code.1).statusCode ≠ 0 := by
    rw [K.statusCode_convertServerItem]
    exact code.2
  simp only [ItemKind.validateDecryptAndConvert, ItemKind.processItems, ItemKind.processItem,
    hitem, List.nil_append, verifierInput, if_neg hstatus, writeVerdicts]

/-- The listing of one decrypted item. -/
theorem ItemKind.validateDecryptAndConvert_decrypted (K : ItemKind ι κ) (contextId : Bytes)
    (userVerifier : UserVerifierInterface) {item : ι} {x : LibItem κ} {dio : DataIntegrityObject}
    (hitem : K.attempt item = .ok (.ok (x, dio))) :
    K.validateDecryptAndConvert contextId userVerifier [item] =
      if x.statusCode = 0 then
        match UserVerifier.verify userVerifier
            [x.verificationRequest contextId dio.bridgeIdentity] with
        | .error e => .error (.thrown e)
        | .ok verified => writeVerdicts verified 0 [x]
      else
        match UserVerifier.verify userVerifier [] with
        | .error e => .error (.thrown e)
        | .ok _ => .ok [x] := by
  by_cases hstatus : x.statusCode = 0
  · simp [ItemKind.validateDecryptAndConvert, ItemKind.processItems, ItemKind.processItem, hitem,
      verifierInput, hstatus]
  · simp [ItemKind.validateDecryptAndConvert, ItemKind.processItems, ItemKind.processItem, hitem,
      verifierInput, writeVerdicts, hstatus]

/-- An item alone is listed with status zero if it is decrypted with status zero
and the verifier accepts its request. -/
theorem ItemKind.listed_alone_iff (K : ItemKind ι κ) (contextId : Bytes)
    (userVerifier : UserVerifierInterface) (item : ι) (x : LibItem κ) :
    K.validateDecryptAndConvert contextId userVerifier [item] = .ok [x] ∧ x.statusCode = 0 ↔
      ∃ dio, K.outcome item = .ok (x, dio) ∧ x.statusCode = 0 ∧
        UserVerifier.verify userVerifier [x.verificationRequest contextId dio.bridgeIdentity] =
          .ok [true] := by
  cases hitem : K.attempt item with
  | error e =>
      have hout : K.outcome item = .error e.statusCode := by simp only [ItemKind.outcome, hitem]
      simp [ItemKind.validateDecryptAndConvert, ItemKind.processItems, ItemKind.processItem, hitem,
        hout]
  | ok o =>
      have hout : K.outcome item = o := by simp only [ItemKind.outcome, hitem]
      cases o with
      | error code =>
          rw [K.validateDecryptAndConvert_failed contextId userVerifier hitem, hout]
          constructor
          · intro h
            obtain ⟨hlist, hzero⟩ := h
            split at hlist
            · cases hlist
            · obtain rfl := List.head_eq_of_cons_eq (Except.ok.inj hlist)
              rw [K.statusCode_convertServerItem] at hzero
              exact absurd hzero code.2
          · intro h
            obtain ⟨dio, hdio, -⟩ := h
            cases hdio
      | ok decrypted =>
          obtain ⟨y, dio⟩ := decrypted
          rw [K.validateDecryptAndConvert_decrypted contextId userVerifier hitem, hout]
          by_cases hy : y.statusCode = 0
          · rw [if_pos hy]
            cases hverify : UserVerifier.verify userVerifier
                [y.verificationRequest contextId dio.bridgeIdentity] with
            | error e =>
                simp only [reduceCtorEq, false_and, false_iff]
                intro h
                obtain ⟨dio', hdio, -, hagain⟩ := h
                cases hdio
                rw [hverify] at hagain
                cases hagain
            | ok verified =>
                obtain ⟨verdict, rfl⟩ : ∃ verdict, verified = [verdict] :=
                  List.length_eq_one_iff.mp (UserVerifier.length_verify hverify)
                have hwritten : writeVerdicts [verdict] 0 [y] =
                    .ok [{ y with
                      statusCode := if verdict then 0 else userVerificationFailure.1 }] := by
                  simp [writeVerdicts, hy]
                dsimp only
                rw [hwritten]
                constructor
                · intro h
                  obtain ⟨hlist, hzero⟩ := h
                  obtain rfl := List.head_eq_of_cons_eq (Except.ok.inj hlist)
                  cases verdict with
                  | false => exact absurd hzero userVerificationFailure.2
                  | true =>
                      obtain ⟨info, content, authorPubKey, statusCode⟩ := y
                      obtain rfl : statusCode = 0 := hy
                      exact ⟨dio, rfl, rfl, hverify⟩
                · intro h
                  obtain ⟨dio', hdio, hzero, hagain⟩ := h
                  cases hdio
                  rw [hverify] at hagain
                  cases hagain
                  obtain ⟨info, content, authorPubKey, statusCode⟩ := x
                  obtain rfl : statusCode = 0 := hzero
                  exact ⟨rfl, rfl⟩
          · rw [if_neg hy]
            constructor
            · intro h
              obtain ⟨hlist, hzero⟩ := h
              split at hlist
              · cases hlist
              · obtain rfl := List.head_eq_of_cons_eq (Except.ok.inj hlist)
                exact absurd hzero hy
            · intro h
              obtain ⟨dio', hdio, hzero, -⟩ := h
              cases hdio
              exact absurd hzero hy

/-- One item gives one result. -/
theorem ItemKind.eq_singleton_of_listed (K : ItemKind ι κ) {contextId : Bytes}
    {userVerifier : UserVerifierInterface} {item : ι} {files : List (LibItem κ)}
    (h : K.validateDecryptAndConvert contextId userVerifier [item] = .ok files) :
    ∃ x, files = [x] := by
  cases hitem : K.attempt item with
  | error e =>
      simp [ItemKind.validateDecryptAndConvert, ItemKind.processItems, ItemKind.processItem,
        hitem] at h
  | ok o =>
      cases o with
      | error code =>
          rw [K.validateDecryptAndConvert_failed contextId userVerifier hitem] at h
          split at h
          · cases h
          · exact ⟨_, (Except.ok.inj h).symm⟩
      | ok decrypted =>
          rw [K.validateDecryptAndConvert_decrypted contextId userVerifier hitem] at h
          split at h
          · split at h
            · cases h
            · rename_i verified hverify
              obtain ⟨verdict, rfl⟩ : ∃ verdict, verified = [verdict] :=
                List.length_eq_one_iff.mp (UserVerifier.length_verify hverify)
              simp only [writeVerdicts] at h
              split at h
              · exact ⟨_, (Except.ok.inj h).symm⟩
              · exact ⟨_, (Except.ok.inj h).symm⟩
          · split at h
            · cases h
            · exact ⟨_, (Except.ok.inj h).symm⟩

/-! ## Alignment -/

/-- The item at an index is decrypted with status zero and its full random id
is new. -/
def ItemKind.Accepted (K : ItemKind ι κ) (items : List ι) (i : Nat) (x : LibItem κ)
    (dio : DataIntegrityObject) : Prop :=
  (∃ item, items[i]? = some item ∧ K.outcome item = .ok (x, dio)) ∧ x.statusCode = 0 ∧
    dio.fullRandomId ∉ K.fullRandomIds (items.take i)

/-- A result is what became of its item, apart from the mark of a duplicate. -/
def ItemKind.Built (K : ItemKind ι κ) (item : ι) (x : LibItem κ) : Prop :=
  match K.outcome item with
  | .error code => x = K.convertServerItem item code.1
  | .ok (y, _) => x = y ∨ x = { y with statusCode := dataIntegrityObjectDuplicated.1 }

/-- The listing is aligned: the results before verification are built from the
items one by one, the request for each result of status zero carries the bridge
identity of that item's own data integrity object, and whatever the verifier
answers, no vector is read behind its end and the verdict for a request is
written to the result that the request was made for. -/
def ItemKind.Aligned (K : ItemKind ι κ) (contextId : Bytes) (items : List ι) : Prop :=
  ∃ (built : List (LibItem κ)) (requests : List VerificationRequest),
    List.Forall₂ K.Built items built ∧
    requests.length = built.countP (·.statusCode = 0) ∧
    (∀ i x, built[i]? = some x → x.statusCode = 0 →
      ∃ item dio, items[i]? = some item ∧ K.outcome item = .ok (x, dio) ∧
        requests[rank built i]? = some (x.verificationRequest contextId dio.bridgeIdentity)) ∧
    ∀ userVerifier,
      match UserVerifier.verify userVerifier requests with
      | .error e => K.validateDecryptAndConvert contextId userVerifier items = .error (.thrown e)
      | .ok verified =>
          ∃ result, K.validateDecryptAndConvert contextId userVerifier items = .ok result ∧
            result.length = items.length ∧
            ∀ i x, built[i]? = some x →
              (x.statusCode ≠ 0 → result[i]? = some x) ∧
                (x.statusCode = 0 → ∃ verdict, verified[rank built i]? = some verdict ∧
                  result[i]? = some (x.withVerdict verdict))

section Alignment

variable {K : ItemKind ι κ} {items : List ι}

theorem ItemKind.built_resultAt (seen : List Bytes) (item : ι) :
    K.Built item (K.resultAt seen item) := by
  unfold ItemKind.Built ItemKind.resultAt
  cases K.outcome item with
  | error code => rfl
  | ok decrypted =>
      obtain ⟨y, dio⟩ := decrypted
      by_cases hdup : dio.fullRandomId ∈ seen
      · exact Or.inr (if_pos hdup)
      · exact Or.inl (if_neg hdup)

theorem ItemKind.forall₂_results (seen : List Bytes) (items : List ι) :
    List.Forall₂ K.Built items (K.results seen items) := by
  induction items generalizing seen with
  | nil => exact .nil
  | cons item items ih => exact .cons (K.built_resultAt seen item) (ih _)

/-- The results of status zero are the accepted items. -/
theorem ItemKind.results_zero_iff (i : Nat) (x : LibItem κ) :
    (K.results [] items)[i]? = some x ∧ x.statusCode = 0 ↔ ∃ dio, K.Accepted items i x dio := by
  rw [ItemKind.getElem?_results, List.nil_append, Option.map_eq_some_iff]
  constructor
  · rintro ⟨⟨item, hitem, rfl⟩, hzero⟩
    unfold ItemKind.resultAt at hzero ⊢
    split at hzero
    · rename_i code _
      rw [K.statusCode_convertServerItem] at hzero
      exact absurd hzero code.2
    · rename_i y dio hout
      split at hzero
      · exact absurd hzero dataIntegrityObjectDuplicated.2
      · rename_i hnew
        rw [if_neg hnew]
        exact ⟨dio, ⟨item, hitem, hout⟩, hzero, hnew⟩
  · rintro ⟨dio, ⟨item, hitem, hout⟩, hzero, hnew⟩
    refine ⟨⟨item, hitem, ?_⟩, hzero⟩
    simp only [ItemKind.resultAt, hout, if_neg hnew]

/-- No failed item before an index: the object at the index is the item's own. -/
theorem ItemKind.getElem?_dios_of_no_failure {i : Nat} {item : ι} {dio : DataIntegrityObject}
    (hitem : items[i]? = some item) (hdio : K.dio item = some dio)
    (hnone : ∀ j < i, ∀ before, items[j]? = some before → K.dio before ≠ none) :
    (items.filterMap K.dio)[i]? = some dio := by
  induction items generalizing i with
  | nil => simp at hitem
  | cons y items ih =>
      cases i with
      | zero =>
          obtain rfl : y = item := by simpa using hitem
          rw [List.filterMap_cons, hdio]
          rfl
      | succ i =>
          obtain ⟨d, hd⟩ := Option.ne_none_iff_exists'.mp (hnone 0 (Nat.succ_pos i) y rfl)
          rw [List.filterMap_cons, hd]
          refine ih (by simpa using hitem) (fun j hj before hbefore => ?_)
          exact hnone (j + 1) (by omega) before (by simpa using hbefore)

/-- The three loops together. -/
theorem ItemKind.validateDecryptAndConvert_eq (hitems : K.Handles items) (contextId : Bytes)
    (userVerifier : UserVerifierInterface) :
    K.validateDecryptAndConvert contextId userVerifier items =
      match verifierInput contextId (items.filterMap K.dio) 0 (K.results [] items) with
      | .error e => .error e
      | .ok requests =>
          match UserVerifier.verify userVerifier requests with
          | .error e => .error (.thrown e)
          | .ok verified => writeVerdicts verified 0 (K.results [] items) := by
  obtain ⟨check, hcheck⟩ := K.processItems_eq hitems ⟨[], [], []⟩ [] (fun _ => Iff.rfl)
  simp only [ItemKind.validateDecryptAndConvert, hcheck, List.nil_append]

/-- What became of a result after the verdicts: nothing if its status was not
zero, else it has the verdict for a request of its own with the bridge identity
of the object at its index. -/
theorem ItemKind.listed_spec {contextId : Bytes} {userVerifier : UserVerifierInterface}
    {result : List (LibItem κ)} (hitems : K.Handles items)
    (h : K.validateDecryptAndConvert contextId userVerifier items = .ok result) :
    ∃ requests verified, UserVerifier.verify userVerifier requests = .ok verified ∧
      ∀ i x, (K.results [] items)[i]? = some x → ∃ y, result[i]? = some y ∧
        (x.statusCode ≠ 0 → y = x) ∧
        (x.statusCode = 0 → ∃ found verdict, (items.filterMap K.dio)[i]? = some found ∧
          requests[rank (K.results [] items) i]? =
            some (x.verificationRequest contextId found.bridgeIdentity) ∧
          verified[rank (K.results [] items) i]? = some verdict ∧ y = x.withVerdict verdict) := by
  rw [K.validateDecryptAndConvert_eq hitems] at h
  split at h
  · cases h
  · rename_i requests hrequests
    split at h
    · cases h
    · rename_i verified hverify
      obtain ⟨hcount, hread⟩ := verifierInput_spec hrequests
      obtain ⟨written, hwritten, -, hall⟩ := writeVerdicts_spec verified (K.results [] items) 0 (by
        rw [UserVerifier.length_verify hverify, hcount, Nat.zero_add])
      rw [hwritten] at h
      obtain rfl := Except.ok.inj h
      refine ⟨requests, verified, hverify, fun i x hx => ?_⟩
      obtain ⟨hkept, hjudged⟩ := hall i x hx
      by_cases hzero : x.statusCode = 0
      · obtain ⟨verdict, hverdict, hy⟩ := hjudged hzero
        obtain ⟨found, hfound, hrequest⟩ := hread i x hx hzero
        rw [Nat.zero_add] at hverdict hfound
        exact ⟨_, hy, fun hne => absurd hzero hne,
          fun _ => ⟨found, verdict, hfound, hrequest, hverdict, rfl⟩⟩
      · exact ⟨x, hkept hzero, fun _ => rfl, fun h => absurd h hzero⟩

/-- Every accepted item comes before the first failed one, or finds another
object with its own bridge identity at its index. -/
def ItemKind.FindsOwnIdentity (K : ItemKind ι κ) (items : List ι) : Prop :=
  ∀ i x dio, K.Accepted items i x dio →
    (∀ j < i, ∀ before, items[j]? = some before → K.dio before ≠ none) ∨
      ∃ found, (items.filterMap K.dio)[i]? = some found ∧
        found.bridgeIdentity = dio.bridgeIdentity

theorem ItemKind.FindsOwnIdentity.found (h : K.FindsOwnIdentity items) {i : Nat} {x : LibItem κ}
    {dio : DataIntegrityObject} (hx : K.Accepted items i x dio) :
    ∃ found, (items.filterMap K.dio)[i]? = some found ∧
      found.bridgeIdentity = dio.bridgeIdentity := by
  rcases h i x dio hx with hnone | hfound
  · obtain ⟨⟨item, hitem, hout⟩, -, -⟩ := hx
    have hdio : K.dio item = some dio := by rw [ItemKind.dio, hout]; rfl
    exact ⟨dio, K.getElem?_dios_of_no_failure hitem hdio hnone, rfl⟩
  · exact hfound

/-- The condition is enough. -/
theorem ItemKind.FindsOwnIdentity.aligned (h : K.FindsOwnIdentity items)
    (hitems : K.Handles items) (contextId : Bytes) : K.Aligned contextId items := by
  have hzero : ∀ i x, (K.results [] items)[i]? = some x → x.statusCode = 0 →
      ∃ dio, K.Accepted items i x dio :=
    fun i x hx hzero => (K.results_zero_iff i x).mp ⟨hx, hzero⟩
  obtain ⟨requests, hrequests⟩ := verifierInput_ok contextId (items.filterMap K.dio)
    (K.results [] items) 0 (fun k x hx hz => by
      obtain ⟨dio, hdio⟩ := hzero k x hx hz
      obtain ⟨found, hfound, -⟩ := h.found hdio
      exact ⟨found, by rwa [Nat.zero_add]⟩)
  obtain ⟨hlen, hspec⟩ := verifierInput_spec hrequests
  refine ⟨K.results [] items, requests, K.forall₂_results [] items, hlen, ?_, ?_⟩
  · intro i x hx hz
    obtain ⟨dio, hacc⟩ := hzero i x hx hz
    obtain ⟨found, hfound, hsame⟩ := h.found hacc
    obtain ⟨read, hread, hreq⟩ := hspec i x hx hz
    rw [Nat.zero_add, hfound] at hread
    cases hread
    obtain ⟨item, hitem, hout⟩ := hacc.1
    exact ⟨item, dio, hitem, hout, by rw [hreq, hsame]⟩
  · intro userVerifier
    have heq := K.validateDecryptAndConvert_eq hitems contextId userVerifier
    rw [hrequests] at heq
    cases hverify : UserVerifier.verify userVerifier requests with
    | error e => simpa only [hverify] using heq
    | ok verified =>
        have hcount := UserVerifier.length_verify hverify
        obtain ⟨written, hwritten, hlength, hverdicts⟩ :=
          writeVerdicts_spec verified (K.results [] items) 0 (by omega)
        refine ⟨written, ?_, by rw [hlength, K.length_results], ?_⟩
        · simpa only [hverify, hwritten] using heq
        · simpa only [Nat.zero_add] using hverdicts

/-- Positive verdicts leave the results as they are. -/
theorem eq_of_verdicts_true {result written : List (LibItem κ)} {n : Nat}
    (hlen : written.length = result.length)
    (h : ∀ k x, result[k]? = some x →
      (x.statusCode ≠ 0 → written[k]? = some x) ∧
        (x.statusCode = 0 → ∃ verdict, (List.replicate n true)[rank result k]? = some verdict ∧
          written[k]? = some (x.withVerdict verdict))) : written = result := by
  apply List.ext_getElem?
  intro k
  cases hx : result[k]? with
  | none =>
      rw [List.getElem?_eq_none_iff] at hx ⊢
      omega
  | some x =>
      by_cases hzero : x.statusCode = 0
      · obtain ⟨verdict, hverdict, hwritten⟩ := (h k x hx).2 hzero
        obtain rfl : verdict = true := by
          rw [List.getElem?_replicate] at hverdict
          split at hverdict
          · exact (Option.some.inj hverdict).symm
          · cases hverdict
        rw [hwritten]
        obtain ⟨info, content, authorPubKey, statusCode⟩ := x
        obtain rfl : statusCode = 0 := hzero
        rfl
      · exact (h k x hx).1 hzero

/-- An aligned listing shows its requests and its results to a verifier that
accepts exactly these requests. -/
theorem ItemKind.Aligned.requests_eq {contextId : Bytes} (h : K.Aligned contextId items)
    (hitems : K.Handles items) :
    ∃ requests, verifierInput contextId (items.filterMap K.dio) 0 (K.results [] items) =
        .ok requests ∧
      ∀ i x, (K.results [] items)[i]? = some x → x.statusCode = 0 →
        ∃ item dio, items[i]? = some item ∧ K.outcome item = .ok (x, dio) ∧
          requests[rank (K.results [] items) i]? =
            some (x.verificationRequest contextId dio.bridgeIdentity) := by
  obtain ⟨built, requests, hbuilt, hcount, hown, hrun⟩ := h
  let accept : UserVerifierInterface := fun r =>
    if r = requests then some (List.replicate requests.length true) else none
  have hverify : UserVerifier.verify accept requests =
      .ok (List.replicate requests.length true) := by
    simp [UserVerifier.verify, accept]
  have hresult := hrun accept
  rw [hverify] at hresult
  obtain ⟨result, hresult, hlength, hverdicts⟩ := hresult
  have hbuiltEq : result = built :=
    eq_of_verdicts_true (by rw [hlength, hbuilt.length_eq]) hverdicts
  rw [K.validateDecryptAndConvert_eq hitems] at hresult
  cases hinput : verifierInput contextId (items.filterMap K.dio) 0 (K.results [] items) with
  | error e =>
      rw [hinput] at hresult
      cases hresult
  | ok read =>
      rw [hinput] at hresult
      have hread : read = requests := by
        by_contra hne
        simp [UserVerifier.verify, accept, hne] at hresult
      subst hread
      simp only [hverify] at hresult
      obtain ⟨written, hwritten, hwlen, hwall⟩ := writeVerdicts_spec
        (List.replicate read.length true) (K.results [] items) 0 (by
          rw [List.length_replicate, (verifierInput_spec hinput).1, Nat.zero_add])
      rw [hwritten] at hresult
      cases hresult
      have hresultsEq : result = K.results [] items :=
        eq_of_verdicts_true hwlen (by simpa only [Nat.zero_add] using hwall)
      rw [← hbuiltEq, hresultsEq] at hown
      exact ⟨read, rfl, hown⟩

/-- **When a listing is aligned.**  For every list of items and every outcome of
their checks and decryptions, the listing is aligned exactly if each accepted
item comes before the first failed one or finds an object with its own bridge
identity at its index. -/
theorem ItemKind.aligned_iff (K : ItemKind ι κ) (contextId : Bytes) (items : List ι)
    (hitems : K.Handles items) : K.Aligned contextId items ↔ K.FindsOwnIdentity items := by
  refine ⟨fun h i x dio hx => Or.inr ?_, fun h => h.aligned hitems contextId⟩
  obtain ⟨requests, hrequests, hown⟩ := h.requests_eq hitems
  obtain ⟨hres, hzero⟩ := (K.results_zero_iff i x).mpr ⟨dio, hx⟩
  obtain ⟨found, hfound, hread⟩ := (verifierInput_spec hrequests).2 i x hres hzero
  obtain ⟨item, own, hitem, hout, hreq⟩ := hown i x hres hzero
  obtain ⟨item', hitem', hout'⟩ := hx.1
  rw [Nat.zero_add] at hfound
  rw [hitem'] at hitem
  cases hitem
  rw [hout'] at hout
  cases hout
  rw [hread] at hreq
  refine ⟨found, hfound, ?_⟩
  have hsame := congrArg VerificationRequest.bridgeIdentity (Option.some.inj hreq)
  exact hsame

end Alignment

/-! ## Failed items before accepted ones -/

/-- Items that are a failed check, or a timestamp that also names the bridge. -/
def sampleItemKind : ItemKind (Option UInt8) Unit where
  validateDataIntegrity
    | none => 0x00040028
    | some _ => 0
  decryptAndConvert
    | none => .error .other
    | some t =>
        .ok (⟨⟨[], [t], 0, [97]⟩, (), [1], 0⟩,
          { DataIntegrityObject.empty with
            timestamp := t.toNat
            bridgeIdentity := some ⟨[t], none, none⟩ })
  convertServerItem item status := ⟨⟨[], item.toList, 0, [97]⟩, (), [], status⟩
  handle e := .ok e.statusCode
  statusCode_convertServerItem _ _ := rfl

theorem sampleItemKind_handles (items : List (Option UInt8)) : sampleItemKind.Handles items := by
  intro item _
  cases item with
  | none => exact ⟨_, rfl⟩
  | some t => exact ⟨_, rfl⟩

/-- A failed item behind the accepted one does no harm. -/
theorem ItemKind.aligned_sample :
    sampleItemKind.Aligned [] [some 1, none] := by
  rw [sampleItemKind.aligned_iff [] [some 1, none] (sampleItemKind_handles _)]
  intro i x dio hx
  obtain ⟨item, hitem, hout⟩ := hx.1
  match i, hitem with
  | 0, _ => exact Or.inl fun j hj => absurd hj (Nat.not_lt_zero j)
  | 1, hitem =>
      obtain rfl : none = item := Option.some.inj hitem
      cases hout

/-- A failed item before an accepted one makes the listing read behind the end
of the data integrity objects. -/
theorem ItemKind.not_aligned_after_failure :
    sampleItemKind.validateDecryptAndConvert [] (fun _ => none) [none, some 1] =
        .error .indexOutOfRange ∧
      ¬ sampleItemKind.Aligned [] [none, some 1] := by
  have hrun : ∀ userVerifier,
      sampleItemKind.validateDecryptAndConvert [] userVerifier [none, some 1] =
        .error .indexOutOfRange := fun _ => rfl
  refine ⟨hrun _, ?_⟩
  rintro ⟨built, requests, -, -, -, hverify⟩
  have haligned := hverify (fun _ => none)
  rw [hrun] at haligned
  cases haligned

end PrivmxEndpoint
