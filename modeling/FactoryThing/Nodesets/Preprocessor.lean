import FactoryThing.Lib.MostFrequent
import FactoryThing.Nodesets.NodeIdText

/-!
# The preprocessor of nodesets

`preProcessDocument` and `open62541_XMLPreprocessor` (open62541_XMLPreprocessor.py:36-376): the
namespaces of all documents get different indices, and what one document refers to in another one
is looked up by the URI of the namespace.
-/

namespace FactoryThing.Nodesets

open MostFrequent SequentialRenaming TextReplacement

/-- What is read of a nodeset: the texts of the aliases, the attributes `NodeId`, the texts of the
references, and the URIs with and without an index. -/
structure Nodeset where
  aliases : List Str
  nodeIds : List Str
  references : List Str
  namespaceOrder : List (Int × Str)
  referencedNamesSpaceUris : List Str

/-- A tuple of an `opcua_node_id_t` and an element, of which the text with the node id is kept. -/
structure Entry where
  id : OpcuaNodeId
  text : Str
deriving DecidableEq

/-- `preProcessDocument` (open62541_XMLPreprocessor.py:36-55). -/
structure PreProcessDocument where
  aliases : List Str
  containedNodes : List Entry
  referencedNodes : List Entry
  namespaceOrder : List (Int × Str)
  referencedNamesSpaceUris : List Str
deriving DecidableEq

def Entry.read (text : Str) : Option Entry := (OpcuaNodeId.read text).map fun id => { id, text }

/-- `analyze` (open62541_XMLPreprocessor.py:107-139). -/
def Nodeset.analyze (nodeset : Nodeset) : Option PreProcessDocument := do
  let containedNodes ← nodeset.nodeIds.mapM Entry.read
  let referencedNodes ← nodeset.references.mapM Entry.read
  return { aliases := nodeset.aliases
           containedNodes, referencedNodes
           namespaceOrder := nodeset.namespaceOrder
           referencedNamesSpaceUris := nodeset.referencedNamesSpaceUris }

/-- The element of a list at an index, which counts from the end when it is negative. -/
def item {α : Type} (l : List α) (k : Int) : Option α :=
  if 0 ≤ k then l[k.toNat]? else if 0 ≤ k + l.length then l[(k + l.length).toNat]? else none

/-- The namespace id in a text replaced (open62541_XMLPreprocessor.py:213, 230). -/
def replaceNs (currentNsId newNsId : Int) (text : Str) : Str :=
  replaceAll (nsText currentNsId) (nsText newNsId) text

/-- The namespace id of an entry replaced, in the text and in the node id. -/
def Entry.reassign (currentNsId newNsId : Int) (nd : Entry) : Entry :=
  { id := { nd.id with ns := newNsId }, text := replaceNs currentNsId newNsId nd.text }

namespace PreProcessDocument

/-- `getNamespaceId` (open62541_XMLPreprocessor.py:141-164). -/
def getNamespaceId (doc : PreProcessDocument) : Int :=
  mostFrequent 0 (doc.containedNodes.map fun ndid => ndid.id.ns)

/-- `getReferencedNamespaceUri` (open62541_XMLPreprocessor.py:166-185), or nothing when the index is
out of range. -/
def getReferencedNamespaceUri (doc : PreProcessDocument) (nsId : Int) : Option Str :=
  match doc.namespaceOrder.find? fun el => el.1 = nsId with
  | some el => some el.2
  | none =>
    if 0 < doc.referencedNamesSpaceUris.length ∧
        nsId - 1 ≤ doc.referencedNamesSpaceUris.length then
      item doc.referencedNamesSpaceUris (nsId - 1)
    else some []

/-- `getNamespaceDependencies` (open62541_XMLPreprocessor.py:187-192). -/
def getNamespaceDependencies (doc : PreProcessDocument) : List Int :=
  firsts (doc.referencedNodes.map fun ndid => ndid.id.ns)

/-- `reassignReferencedNamespaceId` (open62541_XMLPreprocessor.py:203-215). -/
def reassignReferencedNamespaceId (doc : PreProcessDocument) (currentNsId newNsId : Int) :
    PreProcessDocument :=
  { doc with
    referencedNodes := doc.referencedNodes.map fun refNd =>
      if refNd.id.ns = currentNsId then refNd.reassign currentNsId newNsId else refNd }

/-- `reassignNamespaceId` (open62541_XMLPreprocessor.py:217-243). -/
def reassignNamespaceId (doc : PreProcessDocument) (currentNsId newNsId : Int) :
    PreProcessDocument :=
  { doc with
    aliases := doc.aliases.map (replaceNs currentNsId newNsId)
    referencedNodes := doc.containedNodes.foldl (fun refs nd =>
      if nd.id.ns = currentNsId then
        refs.map fun refNd =>
          if refNd.id.ns = currentNsId ∧ refNd.id.eq nd.id then
            refNd.reassign currentNsId newNsId
          else refNd
      else refs) doc.referencedNodes
    containedNodes := doc.containedNodes.map fun nd =>
      if nd.id.ns = currentNsId then nd.reassign currentNsId newNsId else nd }

end PreProcessDocument

open PreProcessDocument

/-- The loop over the documents with a namespace id of their own
(open62541_XMLPreprocessor.py:297-302). -/
def assignFrom : Int → List PreProcessDocument → List PreProcessDocument
  | _, [] => []
  | nsidx, doc :: docs =>
    doc.reassignNamespaceId doc.getNamespaceId (nsidx + 1) :: assignFrom (nsidx + 1) docs

/-- `preprocess_assignUniqueNsIds` (open62541_XMLPreprocessor.py:285-304). -/
def assignUniqueNsIds (preProcDocuments : List PreProcessDocument) : List PreProcessDocument :=
  preProcDocuments.filter (fun doc => doc.getNamespaceId = 0) ++
    assignFrom 1 (preProcDocuments.filter fun doc => doc.getNamespaceId ≠ 0)

/-- One dependency of a document (open62541_XMLPreprocessor.py:328-346), with those that are left to
the next stage. What is looked up in the documents does not change while references are linked. -/
def linkDependency (preProcDocuments : List PreProcessDocument) (nsid : Int)
    (linked : PreProcessDocument × List Int) (d : Int) : Option (PreProcessDocument × List Int) :=
  if d ≠ nsid ∧ d ≠ 0 then do
    let nsUri ← linked.1.getReferencedNamespaceUri d
    match preProcDocuments.find? fun tgt => tgt.getReferencedNamespaceUri 1 = some nsUri with
    | some targetDoc =>
      return (linked.1.reassignReferencedNamespaceId d targetDoc.getNamespaceId, linked.2)
    | none => return (linked.1, linked.2 ++ [d])
  else return linked

/-- The dependencies of a document (open62541_XMLPreprocessor.py:325-346). -/
def linkDocument (preProcDocuments : List PreProcessDocument) (doc : PreProcessDocument) :
    Option (PreProcessDocument × List Int) :=
  doc.getNamespaceDependencies.foldlM (linkDependency preProcDocuments doc.getNamespaceId) (doc, [])

/-- Whether one of the references is found in the model (open62541_XMLPreprocessor.py:265-283). -/
def isCongruent (doc : PreProcessDocument) (refs : List OpcuaNodeId) : Bool :=
  refs.any fun ref => doc.containedNodes.any fun n => ref.mystrname = n.id.mystrname

/-- The stochastic match (open62541_XMLPreprocessor.py:348-376). A best match makes the program
fail, since what is printed of it is the document times 100; without one nothing changes. -/
def revertToStochastic (preProcDocuments : List PreProcessDocument) (doc : PreProcessDocument)
    (d : Int) : Option Unit := do
  let refs ← (doc.referencedNodes.filter fun ref => ref.id.ns = d).mapM fun ref =>
    OpcuaNodeId.read ref.id.mystrname
  if preProcDocuments.any fun tDoc =>
      isCongruent tDoc (refs.map fun r => { r with ns := tDoc.getNamespaceId }) then none
  else some ()

/-- `preprocess_linkDependantModels` (open62541_XMLPreprocessor.py:321-376), or nothing when an
error is raised. -/
def linkDependantModels (preProcDocuments : List PreProcessDocument) :
    Option (List PreProcessDocument) := do
  let linked ← preProcDocuments.mapM (linkDocument preProcDocuments)
  let docs := linked.map Prod.fst
  linked.forM fun (doc, unresolved) => unresolved.forM (revertToStochastic docs doc)
  return docs

/-- Both steps of the preprocessor (open62541_XMLPreprocessor.py:390-391). -/
def preprocess (preProcDocuments : List PreProcessDocument) : Option (List PreProcessDocument) :=
  linkDependantModels (assignUniqueNsIds preProcDocuments)

end FactoryThing.Nodesets
