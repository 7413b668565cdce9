import CoStream.HttpRequest

namespace CoStream
open Foundation

def rfind? (pattern text : Bytes) : Option Nat :=
  (find? pattern.reverse text.reverse).map fun fromEnd => text.length-fromEnd-pattern.length

-- GetUri, in both places where it stands. On an empty uri `length()-1` is npos
-- and so is the result of rfind: the text is then cut at npos and stays empty.
def getUri (uri : Bytes) : Bytes :=
  if uri = ascii "/" then uri
  else
    let front := if find? (ascii "/") uri = some 0 then uri.drop 1 else uri
    match rfind? (ascii "/") front with
    | none => front
    | some pos => if pos+1 = front.length then front.take pos else front

structure Handlers (η : Type) where
  getHandleMap : Std.ExtTreeMap Bytes η := ∅
  postHandleMap : Std.ExtTreeMap Bytes η := ∅

namespace CoHttpServer

def addGetHandle (server : Handlers η) (uri : Bytes) (handleFunc : η) : Handlers η :=
  {server with getHandleMap:=server.getHandleMap.insert (getUri uri) handleFunc}
def addPostHandle (server : Handlers η) (uri : Bytes) (handleFunc : η) : Handlers η :=
  {server with postHandleMap:=server.postHandleMap.insert (getUri uri) handleFunc}

-- The request is left as it is: a copy of its uri is normalised.
def getHandle (server : Handlers η) (request : HttpRequest) : Option η :=
  let uri := getUri request.uri
  if request.method = ascii "GET" then server.getHandleMap[uri]?
  else if request.method = ascii "POST" then server.postHandleMap[uri]?
  else none

end CoHttpServer

namespace HttpServer

def addGetHandle (server : Handlers η) (uri : Bytes) (handleFunc : η) : Handlers η :=
  {server with getHandleMap:=server.getHandleMap.insertIfNew (getUri uri) handleFunc}
def addPostHandle (server : Handlers η) (uri : Bytes) (handleFunc : η) : Handlers η :=
  {server with postHandleMap:=server.postHandleMap.insertIfNew (getUri uri) handleFunc}

-- GetUri writes into the request.
def route (request : HttpRequest) : HttpRequest := {request with uri:=getUri request.uri}

def matched (server : Handlers η) (request : HttpRequest) : Option η :=
  if request.method = ascii "GET" then server.getHandleMap[request.uri]?
  else if request.method = ascii "POST" then server.postHandleMap[request.uri]?
  else none

def getHandle (server : Handlers η) (request : HttpRequest) : HttpRequest × Option η :=
  let routed := route request
  (routed,(matched server routed).or (server.getHandleMap[ascii "/"]?.or server.postHandleMap[ascii "/"]?))

end HttpServer
end CoStream
