/-
  ClipTown.Embeddings.Contract — the model registry of the embedding contract
  (`db/embedding-contract.json`), as `scripts/embeddings/generate.mjs` copies
  it into every generated file.

    • `registeredModels_keys` — a key names one registered model,
    • `registeredModels_valid` — every registered model meets the contract's
      own bounds, and its key is derived from its three parts.
-/
import ClipTown.Embeddings.ClipEmbeddings

namespace ClipTown.Embeddings

/-- `EMBEDDING_WIDTH`. -/
def embeddingWidth : Nat := 4100

/-- `EMBEDDING_PREFIX_WIDTH`. -/
def embeddingPrefixWidth : Nat := 1024

/-- `RegisteredModel`. -/
structure RegisteredModel where
  key : String
  provider : String
  modelName : String
  modelVersion : String
  nativeDims : Nat
  mrl : Bool
  normalizedByProvider : Bool
  family : String
  deriving DecidableEq

/-- `RegisteredModel::mrl_prefix_valid`. -/
def RegisteredModel.mrlPrefixValid (model : RegisteredModel) : Bool :=
  model.mrl && embeddingPrefixWidth ≤ model.nativeDims

/-- `REGISTERED_MODELS`. -/
def registeredModels : List RegisteredModel :=
  [
    ⟨"openai:text-embedding-3-large:1", "openai", "text-embedding-3-large", "1",
      3072, true, true, "openai-v3"⟩,
    ⟨"openai:text-embedding-3-small:1", "openai", "text-embedding-3-small", "1",
      1536, true, true, "openai-v3"⟩,
    ⟨"openai:text-embedding-ada-002:2", "openai", "text-embedding-ada-002", "2",
      1536, false, true, "openai-ada"⟩,
    ⟨"voyage:voyage-3-large:1", "voyage", "voyage-3-large", "1",
      1024, true, true, "voyage-3"⟩,
    ⟨"voyage:voyage-3.5:1", "voyage", "voyage-3.5", "1",
      1024, true, true, "voyage-3"⟩,
    ⟨"voyage:voyage-3.5-lite:1", "voyage", "voyage-3.5-lite", "1",
      1024, true, true, "voyage-3"⟩,
    ⟨"voyage:voyage-code-3:1", "voyage", "voyage-code-3", "1",
      1024, true, true, "voyage-3"⟩,
    ⟨"google:gemini-embedding-001:1", "google", "gemini-embedding-001", "1",
      3072, true, false, "gemini"⟩,
    ⟨"google:text-embedding-004:1", "google", "text-embedding-004", "1",
      768, false, true, "gemini"⟩,
    ⟨"google:text-multilingual-embedding-002:1", "google", "text-multilingual-embedding-002", "1",
      768, false, true, "gemini"⟩,
    ⟨"qwen:Qwen3-Embedding-8B:1", "qwen", "Qwen3-Embedding-8B", "1",
      4096, true, false, "qwen3"⟩,
    ⟨"qwen:Qwen3-Embedding-4B:1", "qwen", "Qwen3-Embedding-4B", "1",
      2560, true, false, "qwen3"⟩,
    ⟨"qwen:Qwen3-Embedding-0.6B:1", "qwen", "Qwen3-Embedding-0.6B", "1",
      1024, true, false, "qwen3"⟩,
    ⟨"nvidia:NV-Embed-v2:1", "nvidia", "NV-Embed-v2", "1",
      4096, false, false, "nv-embed"⟩,
    ⟨"baai:bge-en-icl:1", "baai", "bge-en-icl", "1",
      4096, false, false, "bge"⟩,
    ⟨"baai:bge-m3:1", "baai", "bge-m3", "1",
      1024, false, true, "bge"⟩,
    ⟨"intfloat:e5-mistral-7b-instruct:1", "intfloat", "e5-mistral-7b-instruct", "1",
      4096, false, false, "e5"⟩
  ]

/-- **A key names one registered model.** -/
theorem registeredModels_keys : (registeredModels.map RegisteredModel.key).Nodup := by
  decide

/-- Every registered model fits the canonical width, and its key is derived
from its provider, name and version. -/
theorem registeredModels_valid :
    ∀ m ∈ registeredModels, 1 ≤ m.nativeDims ∧ m.nativeDims ≤ embeddingWidth
      ∧ m.key = derivedModelKey m.provider m.modelName m.modelVersion := by
  decide

end ClipTown.Embeddings
