import PreviewControl.Object.Form

/-!
# The form of a pod

The form of a pod: its containers, what they run, mount and ask for, its placement, its volumes and
its reported status.
-/
namespace PreviewControl.Form

open Schema

def labelRequirement : Schema := record "LabelSelectorRequirement"
  [req "key" text, req "operator" text, opt "values" (items text)]

def labelSelector : Schema := record "LabelSelector"
  [opt "matchExpressions" (items labelRequirement), opt "matchLabels" (entries text)]

def nameAlone (type : String) : Schema := record type [req "name" text]

def localReference : Schema := nameAlone "LocalObjectReference"

/-- A key of a config map or secret. -/
def keyReference (type : String) : Schema := record type
  [req "key" text, req "name" text, opt "optional" boolean]

def sourceReference (type : String) : Schema := record type
  [req "name" text, opt "optional" boolean]

def fieldReference : Schema := record "ObjectFieldSelector"
  [opt "apiVersion" text, req "fieldPath" text]

def resourceReference : Schema := record "ResourceFieldSelector"
  [opt "containerName" text, opt "divisor" text, req "resource" text]

def environmentVariable : Schema := record "EnvVar"
  [req "name" text, opt "value" text,
   opt "valueFrom" (record "EnvVarSource"
     [opt "configMapKeyRef" (keyReference "ConfigMapKeySelector"), opt "fieldRef" fieldReference,
      opt "resourceFieldRef" resourceReference,
      opt "secretKeyRef" (keyReference "SecretKeySelector")])]

def variableSource : Schema := record "EnvFromSource"
  [opt "configMapRef" (sourceReference "ConfigMapEnvSource"), opt "prefix" text,
   opt "secretRef" (sourceReference "SecretEnvSource")]

def command : Schema := record "ExecAction" [opt "command" (items text)]

def httpRequest : Schema := record "HTTPGetAction"
  [opt "host" text,
   opt "httpHeaders" (items (record "HTTPHeader" [req "name" text, req "value" text])),
   opt "path" text, req "port" integerOrText, opt "scheme" text]

def socket : Schema := record "TCPSocketAction" [opt "host" text, req "port" integerOrText]

def lifecycleAction : Schema := record "LifecycleHandler"
  [opt "exec" command, opt "httpGet" httpRequest,
   opt "sleep" (record "SleepAction" [req "seconds" int64]), opt "tcpSocket" socket]

def probe : Schema := record "Probe"
  [opt "exec" command, opt "failureThreshold" int32,
   opt "grpc" (record "GRPCAction" [req "port" int32, opt "service" text]),
   opt "httpGet" httpRequest, opt "initialDelaySeconds" int32, opt "periodSeconds" int32,
   opt "successThreshold" int32, opt "tcpSocket" socket, opt "terminationGracePeriodSeconds" int64,
   opt "timeoutSeconds" int32]

def containerPort : Schema := record "ContainerPort"
  [req "containerPort" int32, opt "hostIP" text, opt "hostPort" int32, opt "name" text,
   opt "protocol" text]

def resourceNeeds : Schema := record "ResourceRequirements"
  [opt "claims" (items (record "ResourceClaim" [req "name" text, opt "request" text])),
   opt "limits" (entries text), opt "requests" (entries text)]

def profile (type : String) : Schema := record type [opt "localhostProfile" text, req "type" text]

def seLinux : Schema := record "SELinuxOptions"
  [opt "level" text, opt "role" text, opt "type" text, opt "user" text]

def windows : Schema := record "WindowsSecurityContextOptions"
  [opt "gmsaCredentialSpec" text, opt "gmsaCredentialSpecName" text, opt "hostProcess" boolean,
   opt "runAsUserName" text]

def containerSecurity : Schema := record "SecurityContext"
  [opt "allowPrivilegeEscalation" boolean, opt "appArmorProfile" (profile "AppArmorProfile"),
   opt "capabilities" (record "Capabilities" [opt "add" (items text), opt "drop" (items text)]),
   opt "privileged" boolean, opt "procMount" text, opt "readOnlyRootFilesystem" boolean,
   opt "runAsGroup" int64, opt "runAsNonRoot" boolean, opt "runAsUser" int64,
   opt "seLinuxOptions" seLinux, opt "seccompProfile" (profile "SeccompProfile"),
   opt "windowsOptions" windows]

def volumeMount : Schema := record "VolumeMount"
  [req "mountPath" text, opt "mountPropagation" text, req "name" text, opt "readOnly" boolean,
   opt "recursiveReadOnly" text, opt "subPath" text, opt "subPathExpr" text]

def containerFields : List (String × Bool × Schema) :=
  [opt "args" (items text), opt "command" (items text), opt "env" (items environmentVariable),
   opt "envFrom" (items variableSource), opt "image" text, opt "imagePullPolicy" text,
   opt "lifecycle" (record "Lifecycle" [opt "postStart" lifecycleAction,
     opt "preStop" lifecycleAction]),
   opt "livenessProbe" probe, req "name" text, opt "ports" (items containerPort),
   opt "readinessProbe" probe,
   opt "resizePolicy" (items (record "ContainerResizePolicy" [req "resourceName" text,
     req "restartPolicy" text])),
   opt "resources" resourceNeeds, opt "restartPolicy" text, opt "securityContext" containerSecurity,
   opt "startupProbe" probe, opt "stdin" boolean, opt "stdinOnce" boolean,
   opt "terminationMessagePath" text, opt "terminationMessagePolicy" text, opt "tty" boolean,
   opt "volumeDevices" (items (record "VolumeDevice" [req "devicePath" text, req "name" text])),
   opt "volumeMounts" (items volumeMount), opt "workingDir" text]

def container : Schema := record "Container" containerFields

def ephemeralContainer : Schema := record "EphemeralContainer" (containerFields ++
  [opt "targetContainerName" text])

def nodeTerm : Schema := record "NodeSelectorTerm"
  [opt "matchExpressions" (items labelRequirement), opt "matchFields" (items labelRequirement)]

def nodeAffinity : Schema := record "NodeAffinity"
  [opt "preferredDuringSchedulingIgnoredDuringExecution" (items (record "PreferredSchedulingTerm"
     [req "preference" nodeTerm, req "weight" int32])),
   opt "requiredDuringSchedulingIgnoredDuringExecution" (record "NodeSelector"
     [req "nodeSelectorTerms" (items nodeTerm)])]

def podTerm : Schema := record "PodAffinityTerm"
  [opt "labelSelector" labelSelector, opt "matchLabelKeys" (items text),
   opt "mismatchLabelKeys" (items text), opt "namespaceSelector" labelSelector,
   opt "namespaces" (items text), req "topologyKey" text]

def podAffinity : Schema := record "PodAffinity"
  [opt "preferredDuringSchedulingIgnoredDuringExecution" (items (record "WeightedPodAffinityTerm"
     [req "podAffinityTerm" podTerm, req "weight" int32])),
   opt "requiredDuringSchedulingIgnoredDuringExecution" (items podTerm)]

def affinity : Schema := record "Affinity"
  [opt "nodeAffinity" nodeAffinity, opt "podAffinity" podAffinity,
   opt "podAntiAffinity" podAffinity]

def podSecurity : Schema := record "PodSecurityContext"
  [opt "appArmorProfile" (profile "AppArmorProfile"), opt "fsGroup" int64,
   opt "fsGroupChangePolicy" text, opt "runAsGroup" int64, opt "runAsNonRoot" boolean,
   opt "runAsUser" int64, opt "seLinuxOptions" seLinux,
   opt "seccompProfile" (profile "SeccompProfile"), opt "supplementalGroups" (items int64),
   opt "supplementalGroupsPolicy" text,
   opt "sysctls" (items (record "Sysctl" [req "name" text, req "value" text])),
   opt "windowsOptions" windows]

def toleration : Schema := record "Toleration"
  [opt "effect" text, opt "key" text, opt "operator" text, opt "tolerationSeconds" int64,
   opt "value" text]

def spreadConstraint : Schema := record "TopologySpreadConstraint"
  [opt "labelSelector" labelSelector, opt "matchLabelKeys" (items text), req "maxSkew" int32,
   opt "minDomains" int32, opt "nodeAffinityPolicy" text, opt "nodeTaintsPolicy" text,
   req "topologyKey" text, req "whenUnsatisfiable" text]

def keyPaths : Schema := items (record "KeyToPath"
  [req "key" text, opt "mode" int32, req "path" text])

def downwardFiles : Schema := items (record "DownwardAPIVolumeFile"
  [opt "fieldRef" fieldReference, opt "mode" int32, req "path" text,
   opt "resourceFieldRef" resourceReference])

def claimSpec : Schema := record "PersistentVolumeClaimSpec"
  [opt "accessModes" (items text),
   opt "dataSource" (record "TypedLocalObjectReference" [opt "apiGroup" text, req "kind" text,
     req "name" text]),
   opt "dataSourceRef" (record "TypedObjectReference" [opt "apiGroup" text, req "kind" text,
     req "name" text, opt "namespace" text]),
   opt "resources" (record "VolumeResourceRequirements" [opt "limits" (entries text),
     opt "requests" (entries text)]),
   opt "selector" labelSelector, opt "storageClassName" text, opt "volumeAttributesClassName" text,
   opt "volumeMode" text, opt "volumeName" text]

def projection : Schema := record "VolumeProjection"
  [opt "clusterTrustBundle" (record "ClusterTrustBundleProjection"
     [opt "labelSelector" labelSelector, opt "name" text, opt "optional" boolean, req "path" text,
      opt "signerName" text]),
   opt "configMap" (record "ConfigMapProjection" [opt "items" keyPaths, req "name" text,
     opt "optional" boolean]),
   opt "downwardAPI" (record "DownwardAPIProjection" [opt "items" downwardFiles]),
   opt "secret" (record "SecretProjection" [opt "items" keyPaths, req "name" text,
     opt "optional" boolean]),
   opt "serviceAccountToken" (record "ServiceAccountTokenProjection" [opt "audience" text,
     opt "expirationSeconds" int64, req "path" text])]

/-- The volumes that the cluster itself provides. -/
def clusterVolumes : List (String × Bool × Schema) :=
  [opt "configMap" (record "ConfigMapVolumeSource" [opt "defaultMode" int32, opt "items" keyPaths,
     req "name" text, opt "optional" boolean]),
   opt "csi" (record "CSIVolumeSource" [req "driver" text, opt "fsType" text,
     opt "nodePublishSecretRef" localReference, opt "readOnly" boolean,
     opt "volumeAttributes" (entries text)]),
   opt "downwardAPI" (record "DownwardAPIVolumeSource" [opt "defaultMode" int32,
     opt "items" downwardFiles]),
   opt "emptyDir" (record "EmptyDirVolumeSource" [opt "medium" text, opt "sizeLimit" text]),
   opt "ephemeral" (record "EphemeralVolumeSource"
     [opt "volumeClaimTemplate" (record "PersistentVolumeClaimTemplate" [opt "metadata" metadata,
        req "spec" claimSpec])]),
   opt "hostPath" (record "HostPathVolumeSource" [req "path" text, opt "type" text]),
   opt "image" (record "ImageVolumeSource" [opt "pullPolicy" text, opt "reference" text]),
   opt "persistentVolumeClaim" (record "PersistentVolumeClaimVolumeSource" [req "claimName" text,
     opt "readOnly" boolean]),
   opt "projected" (record "ProjectedVolumeSource" [opt "defaultMode" int32,
     opt "sources" (items projection)]),
   opt "secret" (record "SecretVolumeSource" [opt "defaultMode" int32, opt "items" keyPaths,
     opt "optional" boolean, opt "secretName" text])]

/-- The volumes of storage systems outside the cluster. -/
def storageVolumes : List (String × Bool × Schema) :=
  [opt "awsElasticBlockStore" (record "AWSElasticBlockStoreVolumeSource" [opt "fsType" text,
     opt "partition" int32, opt "readOnly" boolean, req "volumeID" text]),
   opt "azureDisk" (record "AzureDiskVolumeSource" [opt "cachingMode" text, req "diskName" text,
     req "diskURI" text, opt "fsType" text, opt "kind" text, opt "readOnly" boolean]),
   opt "azureFile" (record "AzureFileVolumeSource" [opt "readOnly" boolean, req "secretName" text,
     req "shareName" text]),
   opt "cephfs" (record "CephFSVolumeSource" [req "monitors" (items text), opt "path" text,
     opt "readOnly" boolean, opt "secretFile" text, opt "secretRef" localReference,
     opt "user" text]),
   opt "cinder" (record "CinderVolumeSource" [opt "fsType" text, opt "readOnly" boolean,
     opt "secretRef" localReference, req "volumeID" text]),
   opt "fc" (record "FCVolumeSource" [opt "fsType" text, opt "lun" int32, opt "readOnly" boolean,
     opt "targetWWNs" (items text), opt "wwids" (items text)]),
   opt "flexVolume" (record "FlexVolumeSource" [req "driver" text, opt "fsType" text,
     opt "options" (entries text), opt "readOnly" boolean, opt "secretRef" localReference]),
   opt "flocker" (record "FlockerVolumeSource" [opt "datasetName" text, opt "datasetUUID" text]),
   opt "gcePersistentDisk" (record "GCEPersistentDiskVolumeSource" [opt "fsType" text,
     opt "partition" int32, req "pdName" text, opt "readOnly" boolean]),
   opt "gitRepo" (record "GitRepoVolumeSource" [opt "directory" text, req "repository" text,
     opt "revision" text]),
   opt "glusterfs" (record "GlusterfsVolumeSource" [req "endpoints" text, req "path" text,
     opt "readOnly" boolean]),
   opt "iscsi" (record "ISCSIVolumeSource" [opt "chapAuthDiscovery" boolean,
     opt "chapAuthSession" boolean, opt "fsType" text, opt "initiatorName" text, req "iqn" text,
     opt "iscsiInterface" text, req "lun" int32, opt "portals" (items text), opt "readOnly" boolean,
     opt "secretRef" localReference, req "targetPortal" text]),
   opt "nfs" (record "NFSVolumeSource" [req "path" text, opt "readOnly" boolean,
     req "server" text]),
   opt "photonPersistentDisk" (record "PhotonPersistentDiskVolumeSource" [opt "fsType" text,
     req "pdID" text]),
   opt "portworxVolume" (record "PortworxVolumeSource" [opt "fsType" text, opt "readOnly" boolean,
     req "volumeID" text]),
   opt "quobyte" (record "QuobyteVolumeSource" [opt "group" text, opt "readOnly" boolean,
     req "registry" text, opt "tenant" text, opt "user" text, req "volume" text]),
   opt "rbd" (record "RBDVolumeSource" [opt "fsType" text, req "image" text, opt "keyring" text,
     req "monitors" (items text), opt "pool" text, opt "readOnly" boolean,
     opt "secretRef" localReference, opt "user" text]),
   opt "scaleIO" (record "ScaleIOVolumeSource" [opt "fsType" text, req "gateway" text,
     opt "protectionDomain" text, opt "readOnly" boolean, req "secretRef" localReference,
     opt "sslEnabled" boolean, opt "storageMode" text, opt "storagePool" text, req "system" text,
     opt "volumeName" text]),
   opt "storageos" (record "StorageOSVolumeSource" [opt "fsType" text, opt "readOnly" boolean,
     opt "secretRef" localReference, opt "volumeName" text, opt "volumeNamespace" text]),
   opt "vsphereVolume" (record "VsphereVirtualDiskVolumeSource" [opt "fsType" text,
     opt "storagePolicyID" text, opt "storagePolicyName" text, req "volumePath" text])]

def volume : Schema := record "Volume" (req "name" text :: clusterVolumes ++ storageVolumes)

def podSpec : Schema := record "PodSpec"
  [opt "activeDeadlineSeconds" int64, opt "affinity" affinity,
   opt "automountServiceAccountToken" boolean, req "containers" (items container),
   opt "dnsConfig" (record "PodDNSConfig" [opt "nameservers" (items text),
     opt "options" (items (record "PodDNSConfigOption" [opt "name" text, opt "value" text])),
     opt "searches" (items text)]),
   opt "dnsPolicy" text, opt "enableServiceLinks" boolean,
   opt "ephemeralContainers" (items ephemeralContainer),
   opt "hostAliases" (items (record "HostAlias" [opt "hostnames" (items text), req "ip" text])),
   opt "hostIPC" boolean, opt "hostNetwork" boolean, opt "hostPID" boolean, opt "hostUsers" boolean,
   opt "hostname" text, opt "imagePullSecrets" (items localReference),
   opt "initContainers" (items container), opt "nodeName" text, opt "nodeSelector" (entries text),
   opt "os" (nameAlone "PodOS"), opt "overhead" (entries text), opt "preemptionPolicy" text,
   opt "priority" int32, opt "priorityClassName" text,
   opt "readinessGates" (items (record "PodReadinessGate" [req "conditionType" text])),
   opt "resourceClaims" (items (record "PodResourceClaim" [req "name" text,
     opt "resourceClaimName" text, opt "resourceClaimTemplateName" text])),
   opt "restartPolicy" text, opt "runtimeClassName" text, opt "schedulerName" text,
   opt "schedulingGates" (items (nameAlone "PodSchedulingGate")), opt "securityContext" podSecurity,
   opt "serviceAccount" text, opt "serviceAccountName" text, opt "setHostnameAsFQDN" boolean,
   opt "shareProcessNamespace" boolean, opt "subdomain" text,
   opt "terminationGracePeriodSeconds" int64, opt "tolerations" (items toleration),
   opt "topologySpreadConstraints" (items spreadConstraint), opt "volumes" (items volume)]

def containerState : Schema := record "ContainerState"
  [opt "running" (record "ContainerStateRunning" [opt "startedAt" instant]),
   opt "terminated" (record "ContainerStateTerminated" [opt "containerID" text,
     req "exitCode" int32, opt "finishedAt" instant, opt "message" text, opt "reason" text,
     opt "signal" int32, opt "startedAt" instant]),
   opt "waiting" (record "ContainerStateWaiting" [opt "message" text, opt "reason" text])]

def containerStatus : Schema := record "ContainerStatus"
  [opt "allocatedResources" (entries text),
   opt "allocatedResourcesStatus" (items (record "ResourceStatus" [req "name" text,
     opt "resources" (items (record "ResourceHealth" [opt "health" text,
       req "resourceID" text]))])),
   opt "containerID" text, req "image" text, req "imageID" text, opt "lastState" containerState,
   req "name" text, req "ready" boolean, opt "resources" resourceNeeds, req "restartCount" int32,
   opt "started" boolean, opt "state" containerState,
   opt "user" (record "ContainerUser"
     [opt "linux" (record "LinuxContainerUser" [req "gid" int64,
        opt "supplementalGroups" (items int64), req "uid" int64])]),
   opt "volumeMounts" (items (record "VolumeMountStatus" [req "mountPath" text, req "name" text,
     opt "readOnly" boolean, opt "recursiveReadOnly" text]))]

def podCondition : Schema := record "PodCondition"
  [opt "lastProbeTime" instant, opt "lastTransitionTime" instant, opt "message" text,
   opt "reason" text, req "status" text, req "type" text]

def podStatus : Schema := record "PodStatus"
  [opt "conditions" (items podCondition), opt "containerStatuses" (items containerStatus),
   opt "ephemeralContainerStatuses" (items containerStatus), opt "hostIP" text,
   opt "hostIPs" (items (record "HostIP" [req "ip" text])),
   opt "initContainerStatuses" (items containerStatus), opt "message" text,
   opt "nominatedNodeName" text, opt "phase" text, opt "podIP" text,
   opt "podIPs" (items (record "PodIP" [req "ip" text])), opt "qosClass" text, opt "reason" text,
   opt "resize" text,
   opt "resourceClaimStatuses" (items (record "PodResourceClaimStatus" [req "name" text,
     opt "resourceClaimName" text])),
   opt "startTime" instant]

def pod : Schema := kinded "v1" "Pod"
  [req "metadata" metadata, opt "spec" podSpec, opt "status" podStatus]

end PreviewControl.Form
