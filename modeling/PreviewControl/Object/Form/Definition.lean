import PreviewControl.Object.Form

/-!
# The form of a resource definition

The form of the definition of a custom resource: its names, its versions with the schemas of their
objects, and how objects are converted from one version to another.
-/
namespace PreviewControl.Form

open Schema

def validationRule : Schema := record "ValidationRule"
  [opt "fieldPath" text, opt "message" text, opt "messageExpression" text,
   opt "optionalOldSelf" boolean, opt "reason" text, req "rule" text]

/-- Whether more may be there at all, or the form that it has. -/
def schemaOrSwitch (inner : Schema) : Schema := either "JSONSchemaPropsOrBool" boolean inner

/-- One form for all items, or a form for each. -/
def schemaOrList (inner : Schema) : Schema := either "JSONSchemaPropsOrArray" inner (items inner)

/-- The form of a value beside which a field stands, or the names of other fields. -/
def schemaOrNames (inner : Schema) : Schema :=
  either "JSONSchemaPropsOrStringArray" inner (items text)

/-- The form of a schema, given the form of the schemas inside of it. -/
def schemaAround (inner : Schema) : Schema := record "JSONSchemaProps"
  [opt "$ref" text, opt "$schema" text, opt "additionalItems" (schemaOrSwitch inner),
   opt "additionalProperties" (schemaOrSwitch inner), opt "allOf" (items inner),
   opt "anyOf" (items inner), opt "default" any, opt "definitions" (entries inner),
   opt "dependencies" (entries (schemaOrNames inner)), opt "description" text,
   opt "enum" (items any), opt "example" any, opt "exclusiveMaximum" boolean,
   opt "exclusiveMinimum" boolean,
   opt "externalDocs" (record "ExternalDocumentation" [opt "description" text, opt "url" text]),
   opt "format" text, opt "id" text, opt "items" (schemaOrList inner), opt "maxItems" int64,
   opt "maxLength" int64, opt "maxProperties" int64, opt "maximum" number, opt "minItems" int64,
   opt "minLength" int64, opt "minProperties" int64, opt "minimum" number, opt "multipleOf" number,
   opt "not" inner, opt "nullable" boolean, opt "oneOf" (items inner), opt "pattern" text,
   opt "patternProperties" (entries inner), opt "properties" (entries inner),
   opt "required" (items text), opt "title" text, opt "type" text, opt "uniqueItems" boolean,
   opt "x-kubernetes-embedded-resource" boolean, opt "x-kubernetes-int-or-string" boolean,
   opt "x-kubernetes-list-map-keys" (items text), opt "x-kubernetes-list-type" text,
   opt "x-kubernetes-map-type" text, opt "x-kubernetes-preserve-unknown-fields" boolean,
   opt "x-kubernetes-validations" (items validationRule)]

/-- The form of a schema with up to so many others one in another. -/
def schemaWithin : Nat → Schema
  | 0 => nothing
  | depth + 1 => schemaAround (schemaWithin depth)

/-- The form of a schema. No text holds more schemas one in another than it may hold objects. -/
def propertySchema : Schema := schemaWithin Json.maxDepth

/-- The names under which a custom resource is served. -/
def resourceNames : Schema := record "CustomResourceDefinitionNames"
  [opt "categories" (items text), req "kind" text, opt "listKind" text, req "plural" text,
   opt "shortNames" (items text), opt "singular" text]

def printerColumn : Schema := record "CustomResourceColumnDefinition"
  [opt "description" text, opt "format" text, req "jsonPath" text, req "name" text,
   opt "priority" int32, req "type" text]

def resourceVersion : Schema := record "CustomResourceDefinitionVersion"
  [opt "additionalPrinterColumns" (items printerColumn), opt "deprecated" boolean,
   opt "deprecationWarning" text, req "name" text,
   opt "schema" (record "CustomResourceValidation" [opt "openAPIV3Schema" propertySchema]),
   opt "selectableFields" (items (record "SelectableField" [req "jsonPath" text])),
   req "served" boolean, req "storage" boolean,
   opt "subresources" (record "CustomResourceSubresources"
     [opt "scale" (record "CustomResourceSubresourceScale" [opt "labelSelectorPath" text,
        req "specReplicasPath" text, req "statusReplicasPath" text]),
      opt "status" any])]

def webhook : Schema := record "WebhookConversion"
  [opt "clientConfig" (record "WebhookClientConfig" [opt "caBundle" bytes,
     opt "service" (record "ServiceReference" [req "name" text, req "namespace" text,
       opt "path" text, opt "port" int32]),
     opt "url" text]),
   req "conversionReviewVersions" (items text)]

def customResourceDefinition : Schema := kinded "apiextensions.k8s.io/v1" "CustomResourceDefinition"
  [req "metadata" metadata,
   req "spec" (record "CustomResourceDefinitionSpec"
     [opt "conversion" (record "CustomResourceConversion" [req "strategy" text,
        opt "webhook" webhook]),
      req "group" text, req "names" resourceNames, opt "preserveUnknownFields" boolean,
      req "scope" text, req "versions" (items resourceVersion)]),
   opt "status" (record "CustomResourceDefinitionStatus" [opt "acceptedNames" resourceNames,
     opt "conditions" (items (reportedCondition "CustomResourceDefinitionCondition")),
     opt "storedVersions" (items text)])]

end PreviewControl.Form
