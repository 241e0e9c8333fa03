import Mathlib.Algebra.GroupWithZero.Nat
import RagForge.Blocks
import RagForge.Ingestion

namespace RagForge.Embeddings
open RagForge Blocks Ingestion

-- What is sent for one batch; OpenAI's interface has no input type.
structure EmbedRequest where
  texts : List Str
  model : Str
  input_type : Option Str
  dimensions : Nat

structure EmbedReply where
  embeddings : List (List ℚ)
  total_tokens : Nat

-- An exception of the SDK's own class, with its text, or any other one.
inductive CallError where
  | own (text : Str)
  | other (error : Failure)

-- The service behind the SDK may answer the n-th call as it likes.
abbrev Client := Nat → EmbedRequest → Except CallError EmbedReply

-- The `except` clause around a call.
def reraised : CallError → Failure
  | .own text => ⟨true,"Embedding provider error: ".toList ++ text⟩
  | .other error => error

structure Progress where
  sent : List EmbedRequest
  vectors : List (List ℚ)
  total_tokens : Nat

-- The loop of `embed_documents` over the starts of the batches, and what it raises.
def batchLoop (client : Client) (request : List Str → EmbedRequest) (size : Nat) (texts : List Str) :
    List Nat → Progress → Progress × Option Failure
  | [],p => (p,none)
  | i :: rest,p =>
    let batch := request (slice size texts i)
    match client p.sent.length batch with
    | .error error => ({p with sent := p.sent ++ [batch]},some (reraised error))
    | .ok result => batchLoop client request size texts rest
        ⟨p.sent ++ [batch],p.vectors ++ result.embeddings,p.total_tokens + result.total_tokens⟩

def embedBatches (client : Client) (request : List Str → EmbedRequest) (size : Nat) (texts : List Str) :
    List EmbedRequest × Except Failure EmbeddingResult :=
  if texts = [] then ([],.ok ⟨[],0⟩)
  else match batchLoop client request size texts (starts size texts.length) ⟨[],[],0⟩ with
    | (p,none) => (p.sent,.ok ⟨p.vectors,p.total_tokens⟩)
    | (p,some error) => (p.sent,.error error)

namespace VoyageEmbeddingProvider

def MAX_TEXTS_PER_REQUEST : Nat := 128

-- `float` changes no number of an embedding.
def embedDocuments (client : Client) (model : Str) (dimensions : Nat) (texts : List Str) :
    List EmbedRequest × Except Failure EmbeddingResult :=
  embedBatches client (⟨·,model,some "document".toList,dimensions⟩) MAX_TEXTS_PER_REQUEST texts

end VoyageEmbeddingProvider

namespace OpenAIEmbeddingProvider

def MAX_TEXTS_PER_REQUEST : Nat := 2048

def embedDocuments (client : Client) (model : Str) (dimensions : Nat) (texts : List Str) :
    List EmbedRequest × Except Failure EmbeddingResult :=
  embedBatches client (⟨·,model,none,dimensions⟩) MAX_TEXTS_PER_REQUEST texts

end OpenAIEmbeddingProvider

-- A run of calls for the given batches, the n-th and later ones: what was sent,
-- what was answered, and the error that ended it.
inductive Calls (client : Client) (request : List Str → EmbedRequest) :
    Nat → List (List Str) → List EmbedRequest → List EmbedReply → Option CallError → Prop where
  | done : Calls client request n [] [] [] none
  | fails : client n (request batch) = .error error → Calls client request n (batch :: rest) [request batch] [] (some error)
  | answers : client n (request batch) = .ok result → Calls client request (n + 1) rest sent results error →
      Calls client request n (batch :: rest) (request batch :: sent) (result :: results) error

section Calls
variable {client : Client} {request : List Str → EmbedRequest}

theorem batchLoop_calls (client : Client) (request : List Str → EmbedRequest) (size : Nat) (texts : List Str) (todo : List Nat)
    (p : Progress) :
    ∃ sent results error, Calls client request p.sent.length (todo.map (slice size texts)) sent results error ∧
      batchLoop client request size texts todo p =
        (⟨p.sent ++ sent,p.vectors ++ results.flatMap (·.embeddings),p.total_tokens + (results.map (·.total_tokens)).sum⟩,
          error.map reraised) := by
  induction todo generalizing p with
  | nil => exact ⟨[],[],none,.done,by simp [batchLoop]⟩
  | cons i rest ih =>
    cases answer : client p.sent.length (request (slice size texts i)) with
    | error error =>
      refine ⟨_,_,_,.fails answer,?_⟩
      simp [batchLoop,answer]
    | ok result =>
      obtain ⟨sent,results,error,calls,ran⟩ :=
        ih ⟨p.sent ++ [request (slice size texts i)],p.vectors ++ result.embeddings,p.total_tokens + result.total_tokens⟩
      rw [List.length_append] at calls
      refine ⟨_,_,_,.answers answer calls,?_⟩
      rw [batchLoop,answer]
      simp [ran,Nat.add_assoc]

theorem Calls.part (calls : Calls client request n batches sent results error) : sent <+: batches.map request := by
  induction calls with
  | done => exact List.prefix_rfl
  | fails _ => exact ⟨_,rfl⟩
  | answers _ _ ih => exact (List.prefix_cons_inj _).mpr ih

theorem Calls.complete (calls : Calls client request n batches sent results error) (unbroken : error = none) :
    sent = batches.map request := by
  induction calls with
  | done => rfl
  | fails _ => cases unbroken
  | answers _ _ ih => rw [ih unbroken,List.map_cons]

theorem Calls.answer (calls : Calls client request n batches sent results error) (sent_ : sent[i]? = some asked)
    (answered : results[i]? = some result) : client (n + i) asked = .ok result := by
  induction calls generalizing i with
  | done => cases sent_
  | fails _ => cases answered
  | answers here _ ih =>
    cases i with
    | zero =>
      cases sent_
      cases answered
      exact here
    | succ i =>
      rw [Nat.add_comm i,← Nat.add_assoc]
      exact ih sent_ answered

theorem Calls.failed (calls : Calls client request n batches sent results error) (sent_ : sent[i]? = some asked)
    (failed : client (n + i) asked = .error raised) : error = some raised ∧ i + 1 = sent.length := by
  induction calls generalizing i with
  | done => cases sent_
  | fails here =>
    cases i with
    | zero =>
      cases sent_
      cases here.symm.trans failed
      exact ⟨rfl,rfl⟩
    | succ i => cases sent_
  | answers here _ ih =>
    cases i with
    | zero =>
      cases sent_
      cases here.symm.trans failed
    | succ i =>
      rw [Nat.add_comm i,← Nat.add_assoc] at failed
      obtain ⟨raised_,last⟩ := ih sent_ failed
      exact ⟨raised_,by rw [last,List.length_cons]⟩

theorem Calls.each {good : EmbedRequest → EmbedReply → Prop} (calls : Calls client request n batches sent results error)
    (answered : ∀ i asked, sent[i]? = some asked → ∃ result, client (n + i) asked = .ok result ∧ good asked result) :
    error = none ∧ List.Forall₂ good sent results := by
  induction calls with
  | done => exact ⟨rfl,.nil⟩
  | fails here =>
    obtain ⟨result,instead,_⟩ := answered 0 _ rfl
    cases here.symm.trans instead
  | answers here _ ih =>
    obtain ⟨result,same,fits⟩ := answered 0 _ rfl
    cases here.symm.trans same
    obtain ⟨unbroken,later⟩ := ih fun i asked sent_ => by
      rw [Nat.add_assoc,Nat.add_comm 1]
      exact answered (i + 1) asked sent_
    exact ⟨unbroken,.cons fits later⟩

end Calls

-- The SDK reports every failed call by its own class of exceptions.
def Documented (client : Client) : Prop := ∀ n asked error, client n asked = .error error → ∃ text, error = .own text

structure Batched (client : Client) (size : Nat) (texts : List Str) (out : List EmbedRequest × Except Failure EmbeddingResult) : Prop where
  bounded : ∀ asked ∈ out.1, asked.texts.length ≤ size ∧ asked.texts ≠ []
  once : out.1.flatMap (·.texts) <+: texts
  -- with one vector for each text, each text has its own vector's place
  answered : (∀ n asked, out.1[n]? = some asked → ∃ result, client n asked = .ok result ∧ result.embeddings.length = asked.texts.length) →
    out.1.flatMap (·.texts) = texts ∧ ∃ results : List EmbedReply, results.length = out.1.length ∧
      (∀ n asked result, out.1[n]? = some asked → results[n]? = some result → client n asked = .ok result) ∧
      ∃ vectors, out.2 = .ok ⟨vectors,(results.map (·.total_tokens)).sum⟩ ∧ vectors.length = texts.length ∧
        texts.zip vectors = (out.1.zip results).flatMap fun call => call.1.texts.zip call.2.embeddings
  failed : ∀ n asked error, out.1[n]? = some asked → client n asked = .error error →
    (∃ text, out.2 = .error ⟨true,"Embedding provider error: ".toList ++ text⟩) ∧ n + 1 = out.1.length
  -- as if in one call, if a text's vector does not depend on the others
  unbatched : ∀ embed : Str → List ℚ,
    (∀ n asked, out.1[n]? = some asked → ∃ result, client n asked = .ok result ∧ result.embeddings = asked.texts.map embed) →
    ∃ total_tokens, out.2 = .ok ⟨texts.map embed,total_tokens⟩

section Results
variable {client : Client} {request : List Str → EmbedRequest}

theorem embedBatches_calls (positive : 0 < size) (client : Client) (request : List Str → EmbedRequest) (texts : List Str) :
    ∃ sent results error, Calls client request 0 (blocks size texts) sent results error ∧
      embedBatches client request size texts = (sent,match error with
        | none => .ok ⟨results.flatMap (·.embeddings),(results.map (·.total_tokens)).sum⟩
        | some error => .error (reraised error)) := by
  unfold embedBatches
  split
  · rename_i none_
    rw [none_,blocks_nil positive]
    exact ⟨[],[],none,.done,rfl⟩
  · obtain ⟨sent,results,error,calls,ran⟩ := batchLoop_calls client request size texts (starts size texts.length) ⟨[],[],0⟩
    refine ⟨sent,results,error,calls,?_⟩
    rw [ran]
    cases error <;> simp

theorem zip_calls (each : List.Forall₂ (fun (asked : EmbedRequest) (result : EmbedReply) => result.embeddings.length = asked.texts.length)
    sent results) :
    (results.flatMap (·.embeddings)).length = (sent.flatMap (·.texts)).length ∧
      (sent.flatMap (·.texts)).zip (results.flatMap (·.embeddings)) =
        (sent.zip results).flatMap fun call => call.1.texts.zip call.2.embeddings := by
  induction each with
  | nil => exact ⟨rfl,rfl⟩
  | cons here _ ih =>
    obtain ⟨total,zipped⟩ := ih
    constructor
    · simp [here,total]
    · rw [List.flatMap_cons,List.flatMap_cons,List.zip_append here.symm,zipped,List.zip_cons_cons,List.flatMap_cons]

theorem embed_calls (each : List.Forall₂ (fun (asked : EmbedRequest) (result : EmbedReply) => result.embeddings = asked.texts.map embed)
    sent results) : results.flatMap (·.embeddings) = (sent.flatMap (·.texts)).map embed := by
  induction each with
  | nil => rfl
  | cons here _ ih => rw [List.flatMap_cons,List.flatMap_cons,List.map_append,here,ih]

theorem embedBatches_batched (positive : 0 < size) (documented : Documented client) (plain : ∀ batch, (request batch).texts = batch)
    (texts : List Str) : Batched client size texts (embedBatches client request size texts) := by
  obtain ⟨sent,results,error,calls,ran⟩ := embedBatches_calls positive client request texts
  have all_texts : ((blocks size texts).map request).flatMap (·.texts) = texts := by
    simp [List.flatMap_map,plain,blocks_flatten positive]
  have whole (unbroken : error = none) : sent.flatMap (·.texts) = texts := by rw [calls.complete unbroken,all_texts]
  rw [ran]
  constructor
  · intro asked member
    obtain ⟨block,inside,rfl⟩ := List.mem_map.mp (calls.part.subset member)
    rw [plain]
    exact blocks_bounded positive texts block inside
  · obtain ⟨later,same⟩ := calls.part
    rw [← same,List.flatMap_append] at all_texts
    exact ⟨_,all_texts⟩
  · intro answered
    obtain ⟨unbroken,each⟩ := calls.each fun n asked sent_ => by rw [Nat.zero_add]; exact answered n asked sent_
    obtain ⟨total,zipped⟩ := zip_calls each
    rw [whole unbroken] at total zipped
    subst unbroken
    refine ⟨whole rfl,results,each.length_eq.symm,fun n asked result sent_ result_ => ?_,_,rfl,total,zipped⟩
    have answer := calls.answer sent_ result_
    rwa [Nat.zero_add] at answer
  · intro n asked raised sent_ failed
    obtain ⟨rfl,last⟩ := calls.failed sent_ (by rw [Nat.zero_add]; exact failed)
    obtain ⟨text,rfl⟩ := documented n asked raised failed
    exact ⟨⟨text,rfl⟩,last⟩
  · intro embed answered
    obtain ⟨unbroken,each⟩ := calls.each fun n asked sent_ => by rw [Nat.zero_add]; exact answered n asked sent_
    have vectors := embed_calls each
    rw [whole unbroken] at vectors
    subst unbroken
    exact ⟨_,by rw [vectors]⟩

end Results

-- Both providers, for lists of any length; the SDKs' failures are all their own.
theorem embed_documents_batched (client : Client) (documented : Documented client) (model : Str) (dimensions : Nat) (texts : List Str) :
    Batched client 128 texts (VoyageEmbeddingProvider.embedDocuments client model dimensions texts) ∧
      Batched client 2048 texts (OpenAIEmbeddingProvider.embedDocuments client model dimensions texts) :=
  ⟨embedBatches_batched (by decide) documented (fun _ => rfl) texts,embedBatches_batched (by decide) documented (fun _ => rfl) texts⟩

-- One text more than fits into a batch, and a service that counts letters.
theorem embed_documents_batched_lengths : ∃ total_tokens,
    (VoyageEmbeddingProvider.embedDocuments (fun _ asked => .ok ⟨asked.texts.map fun text => [text.length],asked.texts.length⟩)
      "voyage-3-large".toList 1024 (List.replicate 129 "Raft".toList)).2 =
      .ok ⟨(List.replicate 129 "Raft".toList).map fun text => [(text.length : ℚ)],total_tokens⟩ :=
  (embed_documents_batched _ (by intro _ _ _ raised; cases raised) "voyage-3-large".toList 1024 (List.replicate 129 "Raft".toList)).1.unbatched _
    fun _ _ _ => ⟨_,rfl,rfl⟩

end RagForge.Embeddings
